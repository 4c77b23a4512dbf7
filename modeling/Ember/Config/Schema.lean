import Ember.Library.Visitor
import Ember.Config
import Ember.Config.Memory

/-!
# Reading a configuration

`Config` and the types in it derive their deserializers.  A derived deserializer visits the
entries of a table: an entry for a field is read with the deserializer of the field, and what
happens to any other entry depends on whether the type denies unknown fields.  Here the
deserializers are written out, type by type, as visitors.  We then determine for which documents
every key of every table is a declared field.

Derived deserializers also read a struct from an array of its fields, in order.  Structs and maps
see a date as a table with one private key.
-/

namespace Ember

/-- The errors of reading a configuration. -/
inductive DeError where
  | unknownField (key : String) (expected : List String)
  | duplicateField (key : String)
  | missingField (key : String)
  | unknownVariant (name : String) (expected : List String)
  | invalidType (expected : String)
  | invalidValue (expected : String)
  | custom (message : String)
  deriving DecidableEq, Repr

/-! ### Fields -/

def deString : Toml → Except DeError String
  | .string s => .ok s
  | _ => .error (.invalidType "a string")

def deBool : Toml → Except DeError Bool
  | .boolean b => .ok b
  | _ => .error (.invalidType "a boolean")

/-- Unsigned integers of the given number of bits. -/
def deUnsigned (bits : ℕ) : Toml → Except DeError ℕ
  | .integer z =>
      if 0 ≤ z ∧ z < 2 ^ bits then .ok z.toNat else .error (.invalidValue s!"u{bits}")
  | _ => .error (.invalidType s!"u{bits}")

/-- `deserialize_memory`. -/
def deMemory (v : Toml) : Except DeError ℕ := (deserializeMemory v).mapError .custom

/-- `serde_millis::deserialize`: a duration, given in milliseconds. -/
def deMillis (v : Toml) : Except DeError Duration := (deUnsigned 64 v).map (· * 1000000)

/-- The items of an array, one after the other. -/
def deItems {α : Type} (item : Toml → Except DeError α) : List Toml → Except DeError (List α)
  | [] => .ok []
  | v :: vs =>
      match item v with
      | .error e => .error e
      | .ok a => (deItems item vs).map (a :: ·)

/-- Arrays. -/
def deList {α : Type} (item : Toml → Except DeError α) : Toml → Except DeError (List α)
  | .array items => deItems item items
  | _ => .error (.invalidType "a sequence")

/-- The entries of a table of texts, inserted one after the other. -/
def deTexts (map : ConfigMap) : List (String × Toml) → Except DeError ConfigMap
  | [] => .ok map
  | (key, v) :: rest =>
      match deString v with
      | .error e => .error e
      | .ok s => deTexts (map.insert key s) rest

/-- Tables of texts with any keys. -/
def deStringMap : Toml → Except DeError ConfigMap
  | .table entries => deTexts ∅ entries
  | .datetime text => deTexts ∅ [("$__toml_private_datetime", .string text)]
  | _ => .error (.invalidType "a map")

/-! ### Structs -/

/-- The entries a struct with these fields is read from. -/
def Toml.entries (fields : List String) : Toml → Except DeError (List (String × Toml))
  | .table entries => .ok entries
  | .array items => .ok (fields.zip items)
  | .datetime text => .ok [("$__toml_private_datetime", .string text)]
  | _ => .error (.invalidType "struct")

/-- The visitor a struct derives. -/
def structVisitor {σ : Type} (denyUnknown : Bool) (fields : List String)
    (set : σ → String → Toml → Except DeError σ) : Visitor String Toml σ DeError where
  fields := fields
  denyUnknown := denyUnknown
  set := set
  unknownField key := .unknownField key fields
  duplicateField := .duplicateField

/-- Read a struct, where `init` has the defaults of its fields. -/
def deStruct {σ : Type} (V : Visitor String Toml σ DeError) (init : σ) (v : Toml) :
    Except DeError σ :=
  match v.entries V.fields with
  | .error e => .error e
  | .ok entries => V.visit [] init entries

def engineFields : List String :=
  ["max_memory_bytes", "max_instances", "threads", "epoch_interval_ms"]

/-- `EngineConfig`, which denies unknown fields. -/
def EngineConfig.visitor : Visitor String Toml EngineConfig DeError :=
  structVisitor true engineFields fun c key v =>
    if key = "max_memory_bytes" then (deMemory v).map fun n => { c with maxMemoryBytes := n }
    else if key = "max_instances" then
      (deUnsigned 64 v).map fun n => { c with maxInstances := n }
    else if key = "threads" then (deUnsigned 64 v).map fun n => { c with threads := n }
    else (deUnsigned 64 v).map fun n => { c with epochIntervalMs := n }

def registryFields : List String := ["endpoint", "insecure", "pull_interval_secs", "cache_dir"]

/-- `RegistryConfig`, which denies unknown fields. -/
def RegistryConfig.visitor : Visitor String Toml RegistryConfig DeError :=
  structVisitor true registryFields fun c key v =>
    if key = "endpoint" then (deString v).map fun s => { c with endpoint := s }
    else if key = "insecure" then (deBool v).map fun b => { c with insecure := b }
    else if key = "pull_interval_secs" then
      (deUnsigned 64 v).map fun n => { c with pullIntervalSecs := n }
    else (deString v).map fun s => { c with cacheDir := s }

def httpFields : List String :=
  ["timeout_secs", "concurrency", "max_body_bytes", "request_id_header"]

/-- `HttpConfig`, which denies unknown fields. -/
def HttpConfig.visitor : Visitor String Toml HttpConfig DeError :=
  structVisitor true httpFields fun c key v =>
    if key = "timeout_secs" then (deUnsigned 64 v).map fun n => { c with timeoutSecs := n }
    else if key = "concurrency" then (deUnsigned 64 v).map fun n => { c with concurrency := n }
    else if key = "max_body_bytes" then (deMemory v).map fun n => { c with maxBodyBytes := n }
    else (deString v).map fun s => { c with requestIdHeader := s }

def limitsFields : List String :=
  ["max_memory_bytes", "max_instances", "max_tables", "max_epoch_delta", "max_wall_duration_ms",
    "max_body_bytes", "memfs_quota_bytes", "cpus", "egress_allow", "default_deny_egress"]

/-- `SandboxLimits`, which ignores unknown fields. -/
def SandboxLimits.visitor : Visitor String Toml SandboxLimits DeError :=
  structVisitor false limitsFields fun l key v =>
    if key = "max_memory_bytes" then (deMemory v).map fun n => { l with maxMemoryBytes := n }
    else if key = "max_instances" then
      (deUnsigned 64 v).map fun n => { l with maxInstances := n }
    else if key = "max_tables" then (deUnsigned 64 v).map fun n => { l with maxTables := n }
    else if key = "max_epoch_delta" then
      (deUnsigned 64 v).map fun n => { l with maxEpochDelta := n }
    else if key = "max_wall_duration_ms" then
      (deMillis v).map fun d => { l with maxWallDuration := d }
    else if key = "max_body_bytes" then (deMemory v).map fun n => { l with maxBodyBytes := n }
    else if key = "memfs_quota_bytes" then
      (deMemory v).map fun n => { l with memfsQuotaBytes := n }
    else if key = "cpus" then (deUnsigned 32 v).map fun n => { l with cpus := n }
    else if key = "egress_allow" then
      (deList deString v).map fun rules => { l with egressAllow := rules }
    else (deBool v).map fun b => { l with defaultDenyEgress := b }

/-! ### The source of a component -/

/-- The tag `kind` of an internally tagged enum, and the content that is left. -/
def deTagged : Toml → Except DeError (Toml × Toml)
  | .table entries =>
      match entries.filter (·.1 = "kind") with
      | [] => .error (.missingField "kind")
      | [(_, tag)] => .ok (tag, .table (entries.filter (·.1 ≠ "kind")))
      | _ => .error (.duplicateField "kind")
  | .array (tag :: items) => .ok (tag, .array items)
  | .array [] => .error (.missingField "kind")
  | _ => .error (.invalidType "internally tagged enum ComponentSource")

def ociFields : List String := ["reference", "pin"]

/-- The fields of `ComponentSource::Oci`.  Unknown fields are ignored. -/
def ociVisitor : Visitor String Toml (Option String × Option String) DeError :=
  structVisitor false ociFields fun c key v =>
    if key = "reference" then (deString v).map fun s => (some s, c.2)
    else (deString v).map fun s => (c.1, some s)

def fileFields : List String := ["path"]

/-- The fields of `ComponentSource::File`.  Unknown fields are ignored. -/
def fileVisitor : Visitor String Toml (Option String) DeError :=
  structVisitor false fileFields fun _ _ v => (deString v).map some

/-- Read the fields of a variant.  An array has no items beyond the fields. -/
def deVariant {σ : Type} (V : Visitor String Toml σ DeError) (init : σ) (content : Toml) :
    Except DeError σ :=
  match content with
  | .array items =>
      if items.length ≤ V.fields.length then deStruct V init content
      else .error (.invalidValue "fewer elements in sequence")
  | _ => deStruct V init content

/-- Read where a component comes from. -/
def ComponentSource.deserialize (v : Toml) : Except DeError ComponentSource :=
  match deTagged v with
  | .error e => .error e
  | .ok (tag, content) =>
      match deString tag with
      | .error e => .error e
      | .ok kind =>
          if kind = "oci" then
            match deVariant ociVisitor (none, none) content with
            | .error e => .error e
            | .ok (none, _) => .error (.missingField "reference")
            | .ok (some reference, pin) => .ok (.oci reference pin)
          else if kind = "file" then
            match deVariant fileVisitor none content with
            | .error e => .error e
            | .ok none => .error (.missingField "path")
            | .ok (some path) => .ok (.file path)
          else .error (.unknownVariant kind ["oci", "file"])

/-! ### Tenants and the whole configuration -/

/-- The fields of a tenant read so far. -/
structure TenantParts where
  name : Option String := none
  component : Option ComponentSource := none
  limits : SandboxLimits := {}
  config : ConfigMap := ∅

def tenantFields : List String := ["name", "component", "limits", "config"]

/-- `TenantConfig`, which denies unknown fields. -/
def TenantParts.visitor : Visitor String Toml TenantParts DeError :=
  structVisitor true tenantFields fun c key v =>
    if key = "name" then (deString v).map fun s => { c with name := some s }
    else if key = "component" then
      (ComponentSource.deserialize v).map fun source => { c with component := some source }
    else if key = "limits" then
      (deStruct SandboxLimits.visitor {} v).map fun l => { c with limits := l }
    else (deStringMap v).map fun m => { c with config := m }

/-- Read a tenant. -/
def TenantConfig.deserialize (v : Toml) : Except DeError TenantConfig :=
  match deStruct TenantParts.visitor {} v with
  | .error e => .error e
  | .ok parts =>
      match parts.name, parts.component with
      | none, _ => .error (.missingField "name")
      | _, none => .error (.missingField "component")
      | some name, some component =>
          .ok { name, component, limits := parts.limits, config := parts.config }

section Config

-- `SocketAddr::from_str` decides which texts are addresses
variable (isSocketAddr : String → Bool)

def deSocketAddr (v : Toml) : Except DeError String :=
  match deString v with
  | .error e => .error e
  | .ok s =>
      if isSocketAddr s then .ok s else .error (.custom "invalid socket address syntax")

def configFields : List String := ["bind", "tenants", "engine", "registry", "http"]

/-- `Config`, which denies unknown fields. -/
def Config.visitor : Visitor String Toml Config DeError :=
  structVisitor true configFields fun c key v =>
    if key = "bind" then (deSocketAddr isSocketAddr v).map fun s => { c with bind := s }
    else if key = "tenants" then
      (deList TenantConfig.deserialize v).map fun ts => { c with tenants := ts }
    else if key = "engine" then
      (deStruct EngineConfig.visitor {} v).map fun e => { c with engine := e }
    else if key = "registry" then
      (deStruct RegistryConfig.visitor {} v).map fun r => { c with registry := r }
    else (deStruct HttpConfig.visitor {} v).map fun h => { c with http := h }

/-- Read a configuration from the root table of a document. -/
def Config.deserialize (doc : Toml) : Except DeError Config :=
  deStruct (Config.visitor isSocketAddr) {} doc

end Config

/-! ### Declared keys -/

namespace Toml

/-- If the value is a table, its keys are among the given ones. -/
def KeysIn (fields : List String) (v : Toml) : Prop :=
  ∀ entries, v = .table entries → ∀ e ∈ entries, e.1 ∈ fields

/-- The value `w` is given for the field `key` of the struct `v` with these fields. -/
def Gives (fields : List String) (v : Toml) (key : String) (w : Toml) : Prop :=
  ∃ entries, v.entries fields = .ok entries ∧ (key, w) ∈ entries

/-- The keys declared for the table of a component, by its kind. -/
def componentKeys : Toml → List String
  | .table entries =>
      match entries.lookup "kind" with
      | some (.string "oci") => "kind" :: ociFields
      | some (.string "file") => "kind" :: fileFields
      | _ => ["kind"]
  | _ => []

/-- Every key of the component and of the limits of a tenant is declared. -/
structure OpenKeysDeclared (tenant : Toml) : Prop where
  component : ∀ v, tenant.Gives tenantFields "component" v → v.KeysIn v.componentKeys
  limits : ∀ v, tenant.Gives tenantFields "limits" v → v.KeysIn limitsFields

/-- Every key of every table of a configuration is declared, those of the free-form tables
`tenants.config` apart. -/
structure KeysDeclared (doc : Toml) : Prop where
  own : doc.KeysIn configFields
  engine : ∀ v, doc.Gives configFields "engine" v → v.KeysIn engineFields
  registry : ∀ v, doc.Gives configFields "registry" v → v.KeysIn registryFields
  http : ∀ v, doc.Gives configFields "http" v → v.KeysIn httpFields
  tenants : ∀ items, doc.Gives configFields "tenants" (.array items) → ∀ tenant ∈ items,
    tenant.KeysIn tenantFields ∧ tenant.OpenKeysDeclared

end Toml

/-- A struct that denies unknown fields is read from tables with declared keys only. -/
theorem keysIn_of_deStruct {σ : Type} {V : Visitor String Toml σ DeError} {init : σ} {v : Toml}
    {s : σ} (hdeny : V.denyUnknown = true) (h : deStruct V init v = .ok s) :
  v.KeysIn V.fields
  := by
  rintro entries rfl
  apply Visitor.mem_fields_of_visit hdeny h

/-- What is given for a field of a struct that was read was accepted for it. -/
theorem set_of_deStruct {σ : Type} {V : Visitor String Toml σ DeError} {init : σ} {v : Toml}
    {s : σ} (h : deStruct V init v = .ok s) {key : String} {w : Toml}
    (hgives : v.Gives V.fields key w) (hfield : key ∈ V.fields) :
  ∃ s s', V.set s key w = .ok s'
  := by
  obtain ⟨entries, hentries, hmem⟩ := hgives
  rw [deStruct, hentries] at h
  apply Visitor.set_of_visit h hmem hfield

/-- Every item of an array that was read was accepted. -/
theorem deItems_ok {α : Type} {item : Toml → Except DeError α} {items : List Toml} :
  ∀ {as : List α}, deItems item items = .ok as → ∀ v ∈ items, ∃ a, item v = .ok a
  := by
  induction items with
  | nil =>
      intro as _
      apply List.forall_mem_nil
  | cons v vs ih =>
      intro as h
      rw [deItems] at h
      cases hitem : item v with
      | error e => simp [hitem] at h
      | ok a =>
          rw [List.forall_mem_cons]
          refine ⟨⟨a, hitem⟩, ?_⟩
          cases hrest : deItems item vs with
          | error e => simp [hitem, hrest, Except.map] at h
          | ok rest => exact ih hrest

/-- A mapped result is a success exactly when the result is. -/
theorem exists_ok_of_map {α β : Type} {x : Except DeError α} {f : α → β} {b : β}
    (h : x.map f = .ok b) :
  ∃ a, x = .ok a
  := by
  cases x with
  | error e => simp [Except.map] at h
  | ok a => exact ⟨a, rfl⟩

/-- A tenant is read from tables with declared keys only. -/
theorem TenantConfig.keysIn_of_deserialize {v : Toml} {t : TenantConfig}
    (h : TenantConfig.deserialize v = .ok t) :
  v.KeysIn tenantFields
  := by
  rw [deserialize] at h
  cases hparts : deStruct TenantParts.visitor {} v with
  | error e => simp [hparts] at h
  | ok parts =>
      apply keysIn_of_deStruct (V := TenantParts.visitor) rfl hparts

/-- For every document that is read as a configuration: every key of every table is declared
exactly when those of the components and of the limits of the tenants are. -/
theorem Config.keysDeclared_iff {isSocketAddr : String → Bool} {doc : Toml} {c : Config}
    (h : Config.deserialize isSocketAddr doc = .ok c) :
  doc.KeysDeclared
    ↔ ∀ items, doc.Gives configFields "tenants" (.array items) → ∀ tenant ∈ items,
        tenant.OpenKeysDeclared
  := by
  constructor
  · intro hdeclared items hitems tenant htenant
    apply (hdeclared.tenants items hitems tenant htenant).2
  · intro hopen
    have hset : ∀ {key v}, doc.Gives configFields key v → key ∈ configFields →
        ∃ s s', (Config.visitor isSocketAddr).set s key v = .ok s' := fun hgives hfield =>
      set_of_deStruct (V := Config.visitor isSocketAddr) h hgives hfield
    constructor
    · apply keysIn_of_deStruct (V := Config.visitor isSocketAddr) rfl h
    · intro v hgives
      obtain ⟨s, s', hs⟩ := hset hgives (by decide)
      obtain ⟨e, he⟩ := exists_ok_of_map (x := deStruct EngineConfig.visitor {} v) hs
      apply keysIn_of_deStruct (V := EngineConfig.visitor) rfl he
    · intro v hgives
      obtain ⟨s, s', hs⟩ := hset hgives (by decide)
      obtain ⟨r, hr⟩ := exists_ok_of_map (x := deStruct RegistryConfig.visitor {} v) hs
      apply keysIn_of_deStruct (V := RegistryConfig.visitor) rfl hr
    · intro v hgives
      obtain ⟨s, s', hs⟩ := hset hgives (by decide)
      obtain ⟨t, ht⟩ := exists_ok_of_map (x := deStruct HttpConfig.visitor {} v) hs
      apply keysIn_of_deStruct (V := HttpConfig.visitor) rfl ht
    · intro items hgives tenant htenant
      obtain ⟨s, s', hs⟩ := hset hgives (by decide)
      obtain ⟨ts, hts⟩ :=
        exists_ok_of_map (x := deList TenantConfig.deserialize (.array items)) hs
      obtain ⟨t, ht⟩ := deItems_ok hts tenant htenant
      exact ⟨TenantConfig.keysIn_of_deserialize ht, hopen items hgives tenant htenant⟩

/-- A document with a single tenant, whose component is the given table. -/
def tenantDoc (component : List (String × Toml)) : Toml :=
  .table
    [("tenants", .array [.table [("name", .string "echo"), ("component", .table component)]])]

/-- In a document with a single tenant, every key is declared when the document is read and the
keys of the component are declared. -/
theorem Config.keysDeclared_pinned :
  (tenantDoc
    [("kind", .string "oci"), ("reference", .string "ghcr.io/acme/echo:latest"),
      ("pin", .string "sha256:00")]).KeysDeclared
  := by
  have hread : ∃ c, Config.deserialize (fun s => s = "127.0.0.1:8080")
      (tenantDoc
        [("kind", .string "oci"), ("reference", .string "ghcr.io/acme/echo:latest"),
          ("pin", .string "sha256:00")]) = .ok c := ⟨_, rfl⟩
  obtain ⟨c, hc⟩ := hread
  apply (Config.keysDeclared_iff hc).mpr
  rintro items ⟨entries, hentries, hitems⟩ tenant htenant
  obtain rfl := Except.ok.inj hentries
  rw [List.mem_singleton, Prod.mk.injEq, Toml.array.injEq] at hitems
  obtain ⟨-, rfl⟩ := hitems
  rw [List.mem_singleton] at htenant
  subst htenant
  constructor
  · rintro v ⟨entries, hentries, hv⟩
    obtain rfl := Except.ok.inj hentries
    simp only [List.mem_cons, Prod.mk.injEq, String.reduceEq, false_and, true_and, false_or,
      List.not_mem_nil, or_false] at hv
    subst hv
    rintro entries ⟨⟩
    decide
  · rintro v ⟨entries, hentries, hv⟩
    obtain rfl := Except.ok.inj hentries
    simp at hv

/-- A document whose tenant has a misspelt `pin` is read as a configuration, without the pin. -/
theorem Config.deserialize_misspelt :
  let doc := tenantDoc
    [("kind", .string "oci"), ("reference", .string "ghcr.io/acme/echo:latest"),
      ("pinn", .string "sha256:00")]
  (∃ c, Config.deserialize (fun s => s = "127.0.0.1:8080") doc = .ok c
      ∧ c.tenants.map (·.component) = [.oci "ghcr.io/acme/echo:latest" none])
    ∧ ¬doc.KeysDeclared
  := by
  intro doc
  constructor
  · exact ⟨_, rfl, rfl⟩
  · intro hdeclared
    have htenant := hdeclared.tenants _ ⟨_, rfl, List.mem_singleton_self _⟩ _
      (List.mem_singleton_self _)
    have hkeys := htenant.2.component _ ⟨_, rfl, List.mem_cons_of_mem _ (List.mem_singleton_self _)⟩
    have hkey := hkeys _ rfl ("pinn", .string "sha256:00") (by simp)
    revert hkey
    decide

end Ember
