import Ember.Error

/-!
# Tenant ids

A tenant id is a nonempty word of at most `maxTenantIdLen` ASCII letters, digits, `-` and `_`.
It is used directly as a segment of a URL path.
-/

namespace Ember

/-- The length of the longest tenant id. -/
def maxTenantIdLen : ℕ := 64

/-- The characters of tenant ids. -/
def isTenantIdChar (c : Char) : Bool := c.isAlphanum || c = '-' || c = '_'

/-- Tenant ids. -/
structure TenantId where
  name : String
  nonempty : name ≠ ""
  short : name.utf8ByteSize ≤ maxTenantIdLen
  chars : name.toList.all isTenantIdChar = true

namespace TenantId

@[ext]
theorem ext {a b : TenantId} (h : a.name = b.name) :
  a = b
  := by
  obtain ⟨name, _, _, _⟩ := a
  obtain ⟨name', _, _, _⟩ := b
  obtain rfl : name = name' := h
  rfl

instance : DecidableEq TenantId := fun a b =>
  decidable_of_iff (a.name = b.name) ⟨TenantId.ext, fun h => by rw [h]⟩

/-- Validate and construct a tenant id. -/
def new (name : String) : Except Error TenantId :=
  if hempty : name = "" then .error (.config "tenant id must not be empty")
  else if hlen : name.utf8ByteSize > maxTenantIdLen then
    .error (.config s!"tenant id `{name}` exceeds {maxTenantIdLen} characters")
  else if hchars : name.toList.all isTenantIdChar then
    .ok ⟨name, hempty, Nat.le_of_not_lt hlen, hchars⟩
  else .error (.config s!"tenant id `{name}` may only contain [a-zA-Z0-9-_]")

/-- Parse a tenant id from a segment of a URL path. -/
def parse (s : String) : Except Error TenantId := new s

/-- A tenant id is built from its own name only. -/
theorem new_ok {name : String} {id : TenantId} :
  new name = .ok id ↔ id.name = name
  := by
  constructor
  · intro h
    rw [new] at h
    split at h
    · cases h
    split at h
    · cases h
    split at h
    · cases h
      rfl
    · cases h
  · rintro rfl
    rw [new, dif_neg id.nonempty, dif_neg (Nat.not_lt.mpr id.short), dif_pos id.chars]

/-- The error for a text that is no tenant id is one of the configuration. -/
theorem new_error {name : String} {e : Error} (h : new name = .error e) :
  ∃ detail, e = .config detail
  := by
  rw [new] at h
  split at h
  · exact ⟨_, (Except.error.inj h).symm⟩
  split at h
  · exact ⟨_, (Except.error.inj h).symm⟩
  split at h
  · cases h
  · exact ⟨_, (Except.error.inj h).symm⟩

end TenantId

end Ember
