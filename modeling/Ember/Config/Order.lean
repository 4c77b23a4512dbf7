import Ember.Config.Grammar

/-!
# The order of entries

A table is written as a list of entries, and the deserializers visit them in that order.  Here
we show that the order does not matter: two documents that differ only in the order of the
entries of their tables, at any depth, are read as the same configuration, or neither is read.
-/

namespace Ember

namespace Toml

/-- In one table of the document, at any depth, the entries are in another order.  No key is
given twice in it. -/
inductive Reorders : Toml → Toml → Prop
  | table {entries entries' : List (String × Toml)} (hkeys : (entries.map Prod.fst).Nodup)
      (hperm : entries.Perm entries') : Reorders (.table entries) (.table entries')
  | entry {pre post : List (String × Toml)} {key : String} {v v' : Toml} (h : Reorders v v') :
      Reorders (.table (pre ++ (key, v) :: post)) (.table (pre ++ (key, v') :: post))
  | item {pre post : List Toml} {v v' : Toml} (h : Reorders v v') :
      Reorders (.array (pre ++ v :: post)) (.array (pre ++ v' :: post))

/-- The other order can be undone. -/
theorem Reorders.symm {v v' : Toml} (h : v.Reorders v') :
  v'.Reorders v
  := by
  induction h with
  | table hkeys hperm =>
      apply Reorders.table _ hperm.symm
      apply (hperm.map Prod.fst).nodup_iff.mp hkeys
  | entry _ ih => apply Reorders.entry ih
  | item _ ih => apply Reorders.item ih

/-- The values are the same, or one is the other with a table in another order. -/
def Near (v v' : Toml) : Prop := v = v' ∨ v.Reorders v'

/-- What a value means does not change with the order of entries. -/
def Stable {α : Type} (means : Toml → α → Prop) : Prop :=
  ∀ {v v' : Toml}, v.Reorders v' → ∀ {a}, means v a → means v' a

theorem Stable.near {α : Type} {means : Toml → α → Prop} (h : Stable means) {v v' : Toml}
    (hnear : v.Near v') {a : α} (ha : means v a) :
  means v' a
  := by
  obtain rfl | hreorders := hnear
  · apply ha
  · apply h hreorders ha

/-! ### Scalars -/

/-- The value is neither a table nor an array. -/
def Scalar : Toml → Prop
  | .table _ | .array _ => False
  | _ => True

theorem Reorders.not_scalar {v v' : Toml} (h : v.Reorders v') :
  ¬v.Scalar
  := by
  cases h
  all_goals exact id

/-- A meaning that only scalars have does not change. -/
theorem Stable.of_scalar {α : Type} {means : Toml → α → Prop}
    (h : ∀ v a, means v a → v.Scalar) :
  Stable means
  := by
  intro v v' hreorders a ha
  exact absurd (h v a ha) hreorders.not_scalar

theorem isString_scalar (v : Toml) (s : String) (h : v.IsString s) :
  v.Scalar
  := by
  rw [h]
  trivial

theorem isUnsigned_scalar {bits : ℕ} (v : Toml) (n : ℕ) (h : v.IsUnsigned bits n) :
  v.Scalar
  := by
  rw [h.1]
  trivial

theorem stable_isString :
  Stable IsString
  := Stable.of_scalar isString_scalar

theorem stable_isUnsigned {bits : ℕ} :
  Stable (IsUnsigned bits)
  := Stable.of_scalar isUnsigned_scalar

theorem stable_isBoolean :
  Stable IsBoolean
  := by
  apply Stable.of_scalar
  rintro v b rfl
  trivial

theorem stable_isMemory :
  Stable IsMemory
  := by
  apply Stable.of_scalar
  rintro v n (h | ⟨s, h, -⟩)
  · apply isUnsigned_scalar v n h
  · apply isString_scalar v s h

theorem stable_isMillis :
  Stable IsMillis
  := by
  apply Stable.of_scalar
  rintro v d ⟨n, h, -⟩
  apply isUnsigned_scalar v n h

/-! ### Arrays -/

/-- The items of a reordered array are the same, or reordered themselves. -/
theorem Reorders.items {items : List Toml} {v' : Toml} (h : (Toml.array items).Reorders v') :
  ∃ items', v' = .array items' ∧ List.Forall₂ Near items items'
  := by
  have hrefl : ∀ vs : List Toml, List.Forall₂ Near vs vs := fun vs =>
    List.forall₂_same.mpr fun v _ => .inl rfl
  cases h with
  | item h =>
      refine ⟨_, rfl, ?_⟩
      apply List.rel_append (hrefl _)
      apply List.Forall₂.cons (.inr h) (hrefl _)

theorem Stable.isArray {α : Type} {item : Toml → α → Prop} (h : Stable item) :
  Stable (IsArray item)
  := by
  rintro v v' hreorders as ⟨items, rfl, hitems⟩
  obtain ⟨items', rfl, hnear⟩ := hreorders.items
  refine ⟨items', rfl, ?_⟩
  clear hreorders
  induction hitems generalizing items' with
  | nil =>
      cases hnear
      apply List.Forall₂.nil
  | cons hitem _ ih =>
      obtain _ | ⟨hhead, htail⟩ := hnear
      apply List.Forall₂.cons (h.near hhead hitem)
      apply ih _ htail

/-! ### Structs -/

/-- Entries for the same keys, with values that are the same up to the order of entries. -/
def NearEntries : List (String × Toml) → List (String × Toml) → Prop :=
  List.Forall₂ fun e e' => e.1 = e'.1 ∧ e.2.Near e'.2

theorem nearEntries_refl (entries : List (String × Toml)) :
  NearEntries entries entries
  := by
  apply List.forall₂_same.mpr
  intro e _
  exact ⟨rfl, .inl rfl⟩

theorem NearEntries.keys {entries entries' : List (String × Toml)}
    (h : NearEntries entries entries') :
  entries.map Prod.fst = entries'.map Prod.fst
  := by
  induction h with
  | nil => rfl
  | cons hentry _ ih => rw [List.map_cons, List.map_cons, hentry.1, ih]

theorem NearEntries.exists_mem {entries entries' : List (String × Toml)}
    (h : NearEntries entries entries') {key : String} {w : Toml} (hmem : (key, w) ∈ entries) :
  ∃ w', (key, w') ∈ entries' ∧ w.Near w'
  := by
  induction h with
  | nil => cases hmem
  | @cons e e' _ _ hentry _ ih =>
      obtain ⟨key', w'⟩ := e'
      obtain rfl | hmem := List.mem_cons.mp hmem
      · obtain ⟨rfl, hnear⟩ := hentry
        exact ⟨w', List.mem_cons_self, hnear⟩
      · obtain ⟨w', hw', hnear⟩ := ih hmem
        exact ⟨w', List.mem_cons_of_mem _ hw', hnear⟩

/-- Fields that are given in order are given items that are the same up to the order of
entries. -/
theorem nearEntries_zip {items items' : List Toml} (h : List.Forall₂ Near items items') :
  ∀ fields : List String, NearEntries (fields.zip items) (fields.zip items')
  := by
  induction h with
  | nil =>
      intro fields
      rw [List.zip_nil_right]
      apply List.Forall₂.nil
  | cons hitem _ ih =>
      intro fields
      cases fields with
      | nil => apply List.Forall₂.nil
      | cons field fields =>
          rw [List.zip_cons_cons, List.zip_cons_cons]
          apply List.Forall₂.cons _ (ih fields)
          exact ⟨rfl, hitem⟩

/-- The entries a reordered struct is read from are the same, in some order and up to the order
of entries in their values. -/
theorem Reorders.entries {fields : List String} {v v' : Toml} (h : v.Reorders v')
    {es : List (String × Toml)} (hes : v.entries fields = .ok es) :
  ∃ mid es', v'.entries fields = .ok es' ∧ es.Perm mid ∧ NearEntries mid es'
  := by
  cases h with
  | table hkeys hperm =>
      obtain rfl := Except.ok.inj hes
      exact ⟨_, _, rfl, hperm, nearEntries_refl _⟩
  | entry h =>
      obtain rfl := Except.ok.inj hes
      refine ⟨_, _, rfl, .refl _, ?_⟩
      apply List.rel_append (nearEntries_refl _)
      apply List.Forall₂.cons _ (nearEntries_refl _)
      exact ⟨rfl, .inr h⟩
  | @item pre post v v' h =>
      obtain rfl := Except.ok.inj hes
      have harray : (Toml.array (pre ++ v :: post)).Reorders (.array (pre ++ v' :: post)) :=
        .item h
      obtain ⟨items', hitems', hnear⟩ := harray.items
      rw [hitems']
      exact ⟨_, _, rfl, .refl _, nearEntries_zip hnear fields⟩

/-- A reordered struct is a struct. -/
theorem IsStruct.reorder {denyUnknown : Bool} {fields : List String} {v v' : Toml}
    (h : v.IsStruct denyUnknown fields) (hreorders : v.Reorders v') :
  v'.IsStruct denyUnknown fields
  := by
  obtain ⟨es, hes, honce, hknown⟩ := h
  obtain ⟨mid, es', hes', hperm, hnear⟩ := hreorders.entries hes
  have hkeys : (es.map Prod.fst).Perm (es'.map Prod.fst) := by
    rw [← hnear.keys]
    apply hperm.map
  refine ⟨es', hes', ?_, ?_⟩
  · apply (hkeys.filter _).nodup_iff.mp honce
  · intro hdeny e he
    obtain ⟨e₀, he₀, hkey⟩ := List.mem_map.mp (hkeys.mem_iff.mpr (List.mem_map_of_mem he))
    rw [← hkey]
    apply hknown hdeny e₀ he₀

/-- What a reordered struct gives for a field is what was given for it, up to the order of
entries. -/
theorem Reorders.gives {fields : List String} {v v' : Toml} (h : v.Reorders v') {key : String}
    {w' : Toml} (hgives : v'.Gives fields key w') :
  ∃ w, v.Gives fields key w ∧ w'.Near w
  := by
  obtain ⟨es', hes', hmem⟩ := hgives
  obtain ⟨mid, es, hes, hperm, hnear⟩ := h.symm.entries hes'
  obtain ⟨w, hw, hww⟩ := hnear.exists_mem (hperm.mem_iff.mp hmem)
  exact ⟨w, ⟨es, hes, hw⟩, hww⟩

/-- The other order can be undone. -/
theorem Near.symm {v v' : Toml} (h : v.Near v') :
  v'.Near v
  := by
  obtain rfl | hreorders := h
  · left
    rfl
  · right
    apply hreorders.symm

/-- A field of a reordered struct is what it was. -/
theorem Field.reorder {α : Type} {fields : List String} {v v' : Toml} {key : String}
    {means : Toml → α → Prop} {default a : α} (h : v.Field fields key means default a)
    (hreorders : v.Reorders v') (hmeans : Stable means) :
  v'.Field fields key means default a
  := by
  constructor
  · intro w' hw'
    obtain ⟨w, hw, hnear⟩ := hreorders.gives hw'
    apply hmeans.near hnear.symm (h.given hw)
  · intro hnone
    apply h.omitted
    intro w hw
    obtain ⟨w', hw', -⟩ := hreorders.symm.gives hw
    apply hnone w' hw'

/-- A field that has to be given is given by the reordered struct, and is what it was. -/
theorem Required.reorder {α : Type} {fields : List String} {v v' : Toml} {key : String}
    {means : Toml → α → Prop} {a : α} (h : v.Required fields key means a)
    (hreorders : v.Reorders v') (hmeans : Stable means) :
  v'.Required fields key means a
  := by
  constructor
  · obtain ⟨w, hw⟩ := h.present
    obtain ⟨w', hw', -⟩ := hreorders.symm.gives hw
    exact ⟨w', hw'⟩
  · intro w' hw'
    obtain ⟨w, hw, hnear⟩ := hreorders.gives hw'
    apply hmeans.near hnear.symm (h.given hw)

/-! ### Tables of texts -/

/-- In a table without repeated keys a key is looked up where it is. -/
theorem lookup_eq_some_iff {texts : List (String × String)} (hkeys : (texts.map Prod.fst).Nodup)
    {key s : String} :
  texts.lookup key = some s ↔ (key, s) ∈ texts
  := by
  induction texts with
  | nil => simp
  | cons text texts ih =>
      obtain ⟨key', s'⟩ := text
      rw [List.map_cons, List.nodup_cons] at hkeys
      rw [List.lookup_cons, List.mem_cons, Prod.mk.injEq]
      by_cases hkey : key = key'
      · subst hkey
        have hfresh : (key, s) ∉ texts := by
          intro hmem
          apply hkeys.1
          apply List.mem_map.mpr ⟨_, hmem, rfl⟩
        simp [hfresh, eq_comm]
      · have hbeq : (key == key') = false := beq_false_of_ne hkey
        simp [hbeq, hkey, ih hkeys.2]

theorem lookup_reverse_perm {texts texts' : List (String × String)}
    (hkeys : (texts.map Prod.fst).Nodup) (hperm : texts'.Perm texts) (key : String) :
  texts.reverse.lookup key = texts'.reverse.lookup key
  := by
  have hreverse : (texts.reverse.map Prod.fst).Nodup := by
    rw [List.map_reverse, List.nodup_reverse]
    apply hkeys
  have hreverse' : (texts'.reverse.map Prod.fst).Nodup := by
    rw [List.map_reverse, List.nodup_reverse]
    apply (hperm.map Prod.fst).nodup_iff.mpr hkeys
  ext s
  rw [lookup_eq_some_iff hreverse, lookup_eq_some_iff hreverse', List.mem_reverse,
    List.mem_reverse, hperm.mem_iff]

theorem stable_isTexts :
  Stable IsTexts
  := by
  rintro v v' hreorders m ⟨texts, rfl | ⟨text, rfl, -⟩, hlookup⟩
  -- a date has no entries, and texts are scalars: only the table itself can be in another order
  case inr => cases hreorders
  generalize hentries : texts.map (Prod.map id Toml.string) = entries at hreorders
  cases hreorders with
  | @table _ entries' hkeys hperm =>
      subst hentries
      have htexts : List.Forall₂ (fun e t => e = Prod.map id Toml.string t)
          (texts.map (Prod.map id Toml.string)) texts := by
        rw [List.forall₂_map_left_iff, List.forall₂_same]
        intro t _
        rfl
      obtain ⟨texts', hentries', hperm'⟩ := List.perm_comp_forall₂ hperm.symm htexts
      rw [← List.forall₂_map_right_iff, List.forall₂_eq_eq_eq] at hentries'
      have hnodup : (texts.map Prod.fst).Nodup := by
        simpa [List.map_map, Function.comp_def] using hkeys
      refine ⟨texts', ?_, ?_⟩
      · left
        rw [hentries']
      · intro key
        rw [hlookup]
        apply lookup_reverse_perm hnodup hperm'
  | @entry pre post key w w' h =>
      have hmem : (key, w) ∈ texts.map (Prod.map id Toml.string) := by
        rw [hentries]
        apply List.mem_append_right pre List.mem_cons_self
      obtain ⟨⟨key', s⟩, -, heq⟩ := List.mem_map.mp hmem
      obtain ⟨-, rfl⟩ := Prod.mk.inj heq
      exact absurd trivial h.not_scalar

/-! ### Enums -/

/-- A reordered enum has the same tag, and a rest that is the same up to the order of entries. -/
theorem IsTagged.reorder {v v' content : Toml} {kind : String} (h : v.IsTagged kind content)
    (hreorders : v.Reorders v') :
  ∃ content', v'.IsTagged kind content' ∧ content.Near content'
  := by
  obtain ⟨entries, rfl, hkind, rfl⟩ | ⟨items, rfl, rfl⟩ := h
  · cases hreorders with
    | @table _ entries' hkeys hperm =>
        refine ⟨_, .inl ⟨entries', rfl, ?_, rfl⟩, .inr (.table ?_ (hperm.filter _))⟩
        · have hsingle := hperm.filter (·.1 = "kind")
          rw [hkind, List.singleton_perm] at hsingle
          apply hsingle.symm
        · apply hkeys.sublist (List.filter_sublist.map Prod.fst)
    | @entry pre post key w w' h =>
        -- the tag is a scalar, so the reordered value is in the rest
        have hkey : key ≠ "kind" := by
          rintro rfl
          have hmem : ("kind", w) ∈ [("kind", Toml.string kind)] := by
            rw [← hkind, List.mem_filter]
            constructor
            · apply List.mem_append_right pre List.mem_cons_self
            · apply decide_eq_true rfl
          obtain ⟨-, rfl⟩ := Prod.mk.inj (List.mem_singleton.mp hmem)
          exact absurd trivial h.not_scalar
        refine ⟨_, .inl ⟨_, rfl, ?_, rfl⟩, ?_⟩
        · rw [← hkind]
          simp [hkey]
        · right
          rw [List.filter_append, List.filter_append, List.filter_cons_of_pos (by simpa using hkey),
            List.filter_cons_of_pos (by simpa using hkey)]
          apply Reorders.entry h
  · generalize htagged : Toml.string kind :: items = all at hreorders
    cases hreorders with
    | @item pre post w w' h =>
        cases pre with
        | nil =>
            obtain ⟨rfl, -⟩ := List.cons.inj htagged
            exact absurd trivial h.not_scalar
        | cons tag pre =>
            obtain ⟨rfl, rfl⟩ := List.cons.inj htagged
            exact ⟨_, .inr ⟨_, rfl, rfl⟩, .inr (.item h)⟩

/-- A reordered value has as many items. -/
theorem Fits.reorder {fields : List String} {v v' : Toml} (h : v.Fits fields)
    (hreorders : v.Reorders v') :
  v'.Fits fields
  := by
  rintro items' rfl
  cases hreorders with
  | item _ => simpa using h _ rfl

end Toml

/-! ### Configurations -/

theorem EngineConfig.stable_spelled :
  Toml.Stable fun v c => EngineConfig.Spelled v c
  := by
  rintro v v' h c ⟨hstruct, hmemory, hinstances, hthreads, hepoch⟩
  exact ⟨hstruct.reorder h, hmemory.reorder h Toml.stable_isMemory,
    hinstances.reorder h Toml.stable_isUnsigned, hthreads.reorder h Toml.stable_isUnsigned,
    hepoch.reorder h Toml.stable_isUnsigned⟩

theorem RegistryConfig.stable_spelled :
  Toml.Stable fun v c => RegistryConfig.Spelled v c
  := by
  rintro v v' h c ⟨hstruct, hendpoint, hinsecure, hinterval, hcache⟩
  exact ⟨hstruct.reorder h, hendpoint.reorder h Toml.stable_isString,
    hinsecure.reorder h Toml.stable_isBoolean, hinterval.reorder h Toml.stable_isUnsigned,
    hcache.reorder h Toml.stable_isString⟩

theorem HttpConfig.stable_spelled :
  Toml.Stable fun v c => HttpConfig.Spelled v c
  := by
  rintro v v' h c ⟨hstruct, htimeout, hconcurrency, hbody, hheader⟩
  exact ⟨hstruct.reorder h, htimeout.reorder h Toml.stable_isUnsigned,
    hconcurrency.reorder h Toml.stable_isUnsigned, hbody.reorder h Toml.stable_isMemory,
    hheader.reorder h Toml.stable_isString⟩

theorem SandboxLimits.stable_spelled :
  Toml.Stable fun v l => SandboxLimits.Spelled v l
  := by
  rintro v v' h l ⟨hstruct, hmemory, hinstances, htables, hepoch, hwall, hbody, hquota, hcpus,
    hegress, hdeny⟩
  exact ⟨hstruct.reorder h, hmemory.reorder h Toml.stable_isMemory,
    hinstances.reorder h Toml.stable_isUnsigned, htables.reorder h Toml.stable_isUnsigned,
    hepoch.reorder h Toml.stable_isUnsigned, hwall.reorder h Toml.stable_isMillis,
    hbody.reorder h Toml.stable_isMemory, hquota.reorder h Toml.stable_isMemory,
    hcpus.reorder h Toml.stable_isUnsigned, hegress.reorder h Toml.stable_isString.isArray,
    hdeny.reorder h Toml.stable_isBoolean⟩

theorem ComponentSource.stable_spelled :
  Toml.Stable ComponentSource.Spelled
  := by
  rintro v v' h source ⟨kind, content, htagged, hcontent⟩
  obtain ⟨content', htagged', hnear⟩ := htagged.reorder h
  use kind, content', htagged'
  obtain rfl | hreorders := hnear
  · apply hcontent
  cases source with
  | oci reference pin =>
      obtain ⟨hkind, hfits, hstruct, hreference, hpin⟩ := hcontent
      refine ⟨hkind, hfits.reorder hreorders, hstruct.reorder hreorders,
        hreference.reorder hreorders Toml.stable_isString, hpin.reorder hreorders ?_⟩
      apply Toml.Stable.of_scalar
      rintro w p ⟨s, hs, -⟩
      apply Toml.isString_scalar w s hs
  | file path =>
      obtain ⟨hkind, hfits, hstruct, hpath⟩ := hcontent
      exact ⟨hkind, hfits.reorder hreorders, hstruct.reorder hreorders,
        hpath.reorder hreorders Toml.stable_isString⟩

theorem TenantConfig.stable_spelled :
  Toml.Stable fun v t => TenantConfig.Spelled v t
  := by
  rintro v v' h t ⟨hstruct, hname, hcomponent, hlimits, hconfig⟩
  exact ⟨hstruct.reorder h, hname.reorder h Toml.stable_isString,
    hcomponent.reorder h ComponentSource.stable_spelled,
    hlimits.reorder h SandboxLimits.stable_spelled, hconfig.reorder h Toml.stable_isTexts⟩

namespace Config

variable {isSocketAddr : String → Bool}

theorem stable_spelled :
  Toml.Stable fun v c => Config.Spelled isSocketAddr v c
  := by
  rintro doc doc' h c ⟨hstruct, hbind, htenants, hengine, hregistry, hhttp⟩
  refine ⟨hstruct.reorder h, hbind.reorder h ?_,
    htenants.reorder h TenantConfig.stable_spelled.isArray,
    hengine.reorder h EngineConfig.stable_spelled,
    hregistry.reorder h RegistryConfig.stable_spelled, hhttp.reorder h HttpConfig.stable_spelled⟩
  apply Toml.Stable.of_scalar
  rintro w s ⟨hs, -⟩
  apply Toml.isString_scalar w s hs

/-- Documents that differ in the order of entries, in any number of tables at any depth, spell
the same configurations. -/
theorem spelled_reordered {doc doc' : Toml} (h : Relation.ReflTransGen Toml.Reorders doc doc')
    {c : Config} (hc : c.Spelled isSocketAddr doc) :
  c.Spelled isSocketAddr doc'
  := by
  induction h with
  | refl => apply hc
  | tail _ hstep ih => apply stable_spelled hstep ih

/-- A document whose tables are in another order, at any depth, is read as the same
configuration, and it is refused when the document is. -/
theorem deserialize_reordered {doc doc' : Toml}
    (h : Relation.ReflTransGen Toml.Reorders doc doc') :
  (∀ c, Config.deserialize isSocketAddr doc = .ok c →
      ∃ c', Config.deserialize isSocketAddr doc' = .ok c' ∧ c'.Alike c)
    ∧ ∀ e, Config.deserialize isSocketAddr doc = .error e →
      ∃ e', Config.deserialize isSocketAddr doc' = .error e'
  := by
  constructor
  · intro c hc
    apply deserialize_of_spelled
    apply spelled_reordered h
    apply spelled_of_deserialize hc (Alike.refl c)
  · intro e he
    cases hread : Config.deserialize isSocketAddr doc' with
    | error e' => use e'
    | ok c' =>
        have hsymm : Std.Symm Toml.Reorders := ⟨fun _ _ h => h.symm⟩
        have hback : Relation.ReflTransGen Toml.Reorders doc' doc :=
          Relation.ReflTransGen.stdSymm.symm _ _ h
        have hspelled := spelled_reordered hback (spelled_of_deserialize hread (Alike.refl c'))
        obtain ⟨c, hc, -⟩ := deserialize_of_spelled hspelled
        cases he.symm.trans hc

/-- The table of an engine. -/
def engineEntry : String × Toml := ("engine", .table [("max_memory_bytes", .string "64m")])

/-- The table of a registry. -/
def registryEntry (entries : List (String × Toml)) : String × Toml := ("registry", .table entries)

/-- The table of a registry may stand before that of the engine, and the endpoint at its end. -/
theorem deserialize_reordered_registry :
  ∃ c, Config.deserialize (fun _ => true)
      (.table [registryEntry [("insecure", .boolean true), ("endpoint", .string "mirror")],
        engineEntry]) = .ok c
    ∧ c.registry.endpoint = "mirror" ∧ c.engine.maxMemoryBytes = 64 * 1024 * 1024
  := by
  have hread : ∃ c, Config.deserialize (fun _ => true)
      (.table [engineEntry,
        registryEntry [("endpoint", .string "mirror"), ("insecure", .boolean true)]]) = .ok c
      ∧ c.registry.endpoint = "mirror" ∧ c.engine.maxMemoryBytes = 64 * 1024 * 1024 :=
    ⟨_, rfl, rfl, rfl⟩
  obtain ⟨c, hc, hendpoint, hmemory⟩ := hread
  have hinner : (Toml.table [engineEntry,
        registryEntry [("endpoint", .string "mirror"), ("insecure", .boolean true)]]).Reorders
      (.table [engineEntry,
        registryEntry [("insecure", .boolean true), ("endpoint", .string "mirror")]]) := by
    apply @Toml.Reorders.entry [engineEntry]
    apply Toml.Reorders.table (by decide)
    apply List.Perm.swap
  have houter : (Toml.table [engineEntry,
        registryEntry [("insecure", .boolean true), ("endpoint", .string "mirror")]]).Reorders
      (.table [registryEntry [("insecure", .boolean true), ("endpoint", .string "mirror")],
        engineEntry]) := by
    apply Toml.Reorders.table (by decide)
    apply List.Perm.swap
  obtain ⟨c', hc', hsame⟩ := (deserialize_reordered (.tail (.single hinner) houter)).1 c hc
  use c', hc'
  rw [hsame.registry, hsame.engine]
  exact ⟨hendpoint, hmemory⟩

end Config

end Ember
