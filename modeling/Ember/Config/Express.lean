import Ember.Config.Order

/-!
# What a document can say

Which configurations can be written down?  The integers of a document have 64 bits and a sign, so
a count of instances is below `2 ^ 63`, while a number of bytes can also be given as a text and is
below `2 ^ 64` only.  Apart from such ranges every configuration is read from some document: we
write one down and show that it spells the configuration (`Config.spelled_render`).  Conversely,
whatever is read is in range (`Config.expressible_iff`).
-/

namespace Ember

namespace Toml

/-- The integers in the value are those that a document can have. -/
inductive Storable : Toml → Prop
  | string (s : String) : Storable (.string s)
  | integer {z : ℤ} (hz : -2 ^ 63 ≤ z ∧ z < 2 ^ 63) : Storable (.integer z)
  | float (text : String) : Storable (.float text)
  | boolean (b : Bool) : Storable (.boolean b)
  | datetime (text : String) : Storable (.datetime text)
  | array {items : List Toml} (h : ∀ v ∈ items, Storable v) : Storable (.array items)
  | table {entries : List (String × Toml)} (h : ∀ e ∈ entries, Storable e.2) :
      Storable (.table entries)

end Toml

/-! ### Configurations in range -/

/-- The budget of the engine is in range. -/
structure EngineConfig.Expressible (c : EngineConfig) : Prop where
  memory : c.maxMemoryBytes < 2 ^ 64
  instances : c.maxInstances < 2 ^ 63
  threads : c.threads < 2 ^ 63
  epoch : c.epochIntervalMs < 2 ^ 63

/-- The configuration of the registry client is in range. -/
structure RegistryConfig.Expressible (c : RegistryConfig) : Prop where
  interval : c.pullIntervalSecs < 2 ^ 63

/-- The tuning of the ingress is in range. -/
structure HttpConfig.Expressible (c : HttpConfig) : Prop where
  timeout : c.timeoutSecs < 2 ^ 63
  concurrency : c.concurrency < 2 ^ 63
  body : c.maxBodyBytes < 2 ^ 64

/-- The limits of a tenant are in range.  The time of an invocation is given in milliseconds. -/
structure SandboxLimits.Expressible (l : SandboxLimits) : Prop where
  memory : l.maxMemoryBytes < 2 ^ 64
  instances : l.maxInstances < 2 ^ 63
  tables : l.maxTables < 2 ^ 63
  epoch : l.maxEpochDelta < 2 ^ 63
  wall : ∃ ms < 2 ^ 63, l.maxWallDuration = ms * 1000000
  body : l.maxBodyBytes < 2 ^ 64
  quota : l.memfsQuotaBytes < 2 ^ 64
  cpus : l.cpus < 2 ^ 32

/-- The configuration is in range.  Its address is one, or the default. -/
structure Config.Expressible (isSocketAddr : String → Bool) (c : Config) : Prop where
  bind : isSocketAddr c.bind = true ∨ c.bind = "127.0.0.1:8080"
  tenants : ∀ t ∈ c.tenants, t.limits.Expressible
  engine : c.engine.Expressible
  registry : c.registry.Expressible
  http : c.http.Expressible

/-! ### What is read is in range -/

namespace Toml

variable {fields : List String} {v w : Toml} {key : String}

/-- What is given for a field can be stored with the struct. -/
theorem Storable.gives (hv : v.Storable) (h : v.Gives fields key w) :
  w.Storable
  := by
  obtain ⟨entries, hentries, hmem⟩ := h
  cases hv with
  | table hall =>
      obtain rfl := Except.ok.inj hentries
      apply hall _ hmem
  | array hall =>
      obtain rfl := Except.ok.inj hentries
      apply hall w (List.of_mem_zip hmem).2
  | datetime text =>
      obtain rfl := Except.ok.inj hentries
      obtain ⟨-, rfl⟩ := Prod.mk.inj (List.mem_singleton.mp hmem)
      apply Storable.string
  | _ => cases hentries

/-- What holds of the default and of everything that can be given for a field holds of it. -/
theorem Field.holds {α : Type} {means : Toml → α → Prop} {default a : α} {P : α → Prop}
    (h : v.Field fields key means default a) (hv : v.Storable) (hdefault : P default)
    (hmeans : ∀ {w a}, w.Storable → means w a → P a) :
  P a
  := by
  by_cases hsome : ∃ w, v.Gives fields key w
  · obtain ⟨w, hw⟩ := hsome
    apply hmeans (hv.gives hw) (h.given hw)
  · rw [h.omitted (not_exists.mp hsome)]
    apply hdefault

/-- An unsigned integer in a document is below `2 ^ 63`. -/
theorem IsUnsigned.lt {bits n : ℕ} (hv : v.Storable) (h : v.IsUnsigned bits n) :
  n < 2 ^ 63
  := by
  obtain ⟨rfl, -⟩ := h
  cases hv with
  | integer hz =>
      have hlt := hz.2
      exact_mod_cast hlt

/-- A number of bytes has 64 bits. -/
theorem IsMemory.lt {n : ℕ} (h : v.IsMemory n) :
  n < 2 ^ 64
  := by
  obtain ⟨-, hn⟩ | ⟨s, -, digits, unit, name, multiplier, -, -, -, -, -, -, hn⟩ := h
  · apply hn
  · apply hn

end Toml

/-- The budget of the engine that is read is in range. -/
theorem EngineConfig.Spelled.expressible {v : Toml} {c : EngineConfig} (h : c.Spelled v)
    (hv : v.Storable) :
  c.Expressible
  := by
  constructor
  · apply h.memory.holds hv (by decide) fun _ => Toml.IsMemory.lt
  · apply h.instances.holds hv (by decide) Toml.IsUnsigned.lt
  · apply h.threads.holds hv (by decide) Toml.IsUnsigned.lt
  · apply h.epoch.holds hv (by decide) Toml.IsUnsigned.lt

/-- The configuration of the registry client that is read is in range. -/
theorem RegistryConfig.Spelled.expressible {v : Toml} {c : RegistryConfig} (h : c.Spelled v)
    (hv : v.Storable) :
  c.Expressible
  := by
  constructor
  apply h.interval.holds hv (by decide) Toml.IsUnsigned.lt

/-- The tuning of the ingress that is read is in range. -/
theorem HttpConfig.Spelled.expressible {v : Toml} {c : HttpConfig} (h : c.Spelled v)
    (hv : v.Storable) :
  c.Expressible
  := by
  constructor
  · apply h.timeout.holds hv (by decide) Toml.IsUnsigned.lt
  · apply h.concurrency.holds hv (by decide) Toml.IsUnsigned.lt
  · apply h.body.holds hv (by decide) fun _ => Toml.IsMemory.lt

/-- The limits that are read are in range. -/
theorem SandboxLimits.Spelled.expressible {v : Toml} {l : SandboxLimits} (h : l.Spelled v)
    (hv : v.Storable) :
  l.Expressible
  := by
  constructor
  · apply h.memory.holds hv (by decide) fun _ => Toml.IsMemory.lt
  · apply h.instances.holds hv (by decide) Toml.IsUnsigned.lt
  · apply h.tables.holds hv (by decide) Toml.IsUnsigned.lt
  · apply h.epoch.holds hv (by decide) Toml.IsUnsigned.lt
  · apply h.wall.holds (P := fun d => ∃ ms < 2 ^ 63, d = ms * 1000000) hv
    · exact ⟨10000, by decide, rfl⟩
    · rintro w d hw ⟨ms, hms, rfl⟩
      exact ⟨ms, hms.lt hw, rfl⟩
  · apply h.body.holds hv (by decide) fun _ => Toml.IsMemory.lt
  · apply h.quota.holds hv (by decide) fun _ => Toml.IsMemory.lt
  · apply h.cpus.holds (P := fun n => n < 2 ^ 32) hv (by decide)
    rintro w n - ⟨-, hn⟩
    apply hn

/-- A tenant that is read has limits in range. -/
theorem TenantConfig.Spelled.expressible {v : Toml} {t : TenantConfig} (h : t.Spelled v)
    (hv : v.Storable) :
  t.limits.Expressible
  := by
  apply h.limits.holds hv _ fun hw hl => hl.expressible hw
  exact ⟨by decide, by decide, by decide, by decide, ⟨10000, by decide, rfl⟩, by decide,
    by decide, by decide⟩

/-- A configuration that is read is in range. -/
theorem Config.Spelled.expressible {isSocketAddr : String → Bool} {doc : Toml} {c : Config}
    (h : c.Spelled isSocketAddr doc) (hdoc : doc.Storable) :
  c.Expressible isSocketAddr
  := by
  constructor
  · apply h.bind.holds (P := fun s => isSocketAddr s = true ∨ s = "127.0.0.1:8080") hdoc
    · right
      rfl
    · rintro w s - ⟨-, hs⟩
      left
      apply hs
  · apply h.tenants.holds (P := fun ts => ∀ t ∈ ts, t.limits.Expressible) hdoc
    · apply List.forall_mem_nil
    · rintro w ts hw ⟨items, rfl, hitems⟩ t ht
      obtain ⟨v, hv, hspelled⟩ := exists_related hitems ht
      cases hw with
      | array hall => apply hspelled.expressible (hall v hv)
  · apply h.engine.holds hdoc _ fun hw he => he.expressible hw
    exact ⟨by decide, by decide, by decide, by decide⟩
  · apply h.registry.holds hdoc _ fun hw hr => hr.expressible hw
    exact ⟨by decide⟩
  · apply h.http.holds hdoc _ fun hw hh => hh.expressible hw
    exact ⟨by decide, by decide, by decide⟩

/-! ### Writing a configuration -/

namespace Toml

/-- The text of a number of bytes. -/
def ofMemory (n : ℕ) : Toml := .string (toString n)

/-- An unsigned integer. -/
def ofUnsigned (n : ℕ) : Toml := .integer n

end Toml

def EngineConfig.render (c : EngineConfig) : Toml :=
  .table
    [("max_memory_bytes", .ofMemory c.maxMemoryBytes),
      ("max_instances", .ofUnsigned c.maxInstances),
      ("threads", .ofUnsigned c.threads),
      ("epoch_interval_ms", .ofUnsigned c.epochIntervalMs)]

def RegistryConfig.render (c : RegistryConfig) : Toml :=
  .table
    [("endpoint", .string c.endpoint),
      ("insecure", .boolean c.insecure),
      ("pull_interval_secs", .ofUnsigned c.pullIntervalSecs),
      ("cache_dir", .string c.cacheDir)]

def HttpConfig.render (c : HttpConfig) : Toml :=
  .table
    [("timeout_secs", .ofUnsigned c.timeoutSecs),
      ("concurrency", .ofUnsigned c.concurrency),
      ("max_body_bytes", .ofMemory c.maxBodyBytes),
      ("request_id_header", .string c.requestIdHeader)]

def SandboxLimits.render (l : SandboxLimits) : Toml :=
  .table
    [("max_memory_bytes", .ofMemory l.maxMemoryBytes),
      ("max_instances", .ofUnsigned l.maxInstances),
      ("max_tables", .ofUnsigned l.maxTables),
      ("max_epoch_delta", .ofUnsigned l.maxEpochDelta),
      ("max_wall_duration_ms", .ofUnsigned (l.maxWallDuration / 1000000)),
      ("max_body_bytes", .ofMemory l.maxBodyBytes),
      ("memfs_quota_bytes", .ofMemory l.memfsQuotaBytes),
      ("cpus", .ofUnsigned l.cpus),
      ("egress_allow", .array (l.egressAllow.map .string)),
      ("default_deny_egress", .boolean l.defaultDenyEgress)]

/-- A source, with its kind as the tag. -/
def ComponentSource.render : ComponentSource → Toml
  | .oci reference pin =>
      .table (("kind", .string "oci") :: ("reference", .string reference)
        :: (pin.map fun pin => ("pin", Toml.string pin)).toList)
  | .file path => .table [("kind", .string "file"), ("path", .string path)]

def TenantConfig.render (t : TenantConfig) : Toml :=
  .table
    [("name", .string t.name),
      ("component", t.component.render),
      ("limits", t.limits.render),
      ("config", .table (t.config.entries.map fun e => (e.1, .string e.2)))]

/-- The document.  The default address is left out. -/
def Config.render (c : Config) : Toml :=
  .table
    ((if c.bind = "127.0.0.1:8080" then [] else [("bind", .string c.bind)])
      ++ [("tenants", .array (c.tenants.map TenantConfig.render)),
        ("engine", c.engine.render),
        ("registry", c.registry.render),
        ("http", c.http.render)])

/-! ### What is written is read -/

namespace Toml

variable {fields : List String} {entries : List (String × Toml)} {key : String} {w : Toml}
  {α : Type} {means : Toml → α → Prop} {default a : α}

/-- A table whose keys are some of the fields, in order, is a struct. -/
theorem isStruct_table {denyUnknown : Bool} (hfields : fields.Nodup)
    (hkeys : (entries.map Prod.fst).Sublist fields) :
  (Toml.table entries).IsStruct denyUnknown fields
  := by
  refine ⟨entries, rfl, ?_, ?_⟩
  · apply (hkeys.nodup hfields).filter
  · rintro - e he
    apply hkeys.subset
    apply List.mem_map_of_mem he

/-- An entry of a table is given for its key. -/
theorem gives_table :
  (Toml.table entries).Gives fields key w ↔ (key, w) ∈ entries
  := by
  simp [Gives, Toml.entries]

/-- The only entry for a field says what it is. -/
theorem field_table (hkeys : (entries.map Prod.fst).Nodup) (hmem : (key, w) ∈ entries)
    (hmeans : means w a) :
  (Toml.table entries).Field fields key means default a
  := by
  constructor
  · intro u hu
    have hpair := List.inj_on_of_nodup_map hkeys (gives_table.mp hu) hmem rfl
    rw [(Prod.mk.inj hpair).2]
    apply hmeans
  · intro hnone
    exact absurd (gives_table.mpr hmem) (hnone w)

/-- Without an entry a field is the default. -/
theorem field_default (hkey : key ∉ entries.map Prod.fst) :
  (Toml.table entries).Field fields key means default default
  := by
  constructor
  · intro u hu
    exact absurd (List.mem_map_of_mem (gives_table.mp hu)) hkey
  · intro _
    rfl

/-- The only entry for a field that has to be given says what it is. -/
theorem required_table (hkeys : (entries.map Prod.fst).Nodup) (hmem : (key, w) ∈ entries)
    (hmeans : means w a) :
  (Toml.table entries).Required fields key means a
  := by
  constructor
  · exact ⟨w, gives_table.mpr hmem⟩
  · intro u hu
    have hfield : (Toml.table entries).Field fields key means a a :=
      field_table hkeys hmem hmeans
    apply hfield.given hu

theorem isMemory_ofMemory {n : ℕ} (hn : n < 2 ^ 64) :
  (ofMemory n).IsMemory n
  := by
  right
  exact ⟨_, rfl, isMemorySize_toString hn⟩

theorem isUnsigned_ofUnsigned {bits n : ℕ} (hn : n < 2 ^ bits) :
  (ofUnsigned n).IsUnsigned bits n
  := ⟨rfl, hn⟩

/-- An integer of a document fits in 64 bits. -/
theorem isUnsigned_of_storable {n : ℕ} (hn : n < 2 ^ 63) :
  (ofUnsigned n).IsUnsigned 64 n
  := isUnsigned_ofUnsigned (hn.trans (by decide))

theorem storable_ofUnsigned {n : ℕ} (hn : n < 2 ^ 63) :
  (ofUnsigned n).Storable
  := by
  apply Storable.integer
  constructor
  · omega
  · exact_mod_cast hn

end Toml

/-- The budget of the engine is written as it is. -/
theorem EngineConfig.spelled_render {c : EngineConfig} (h : c.Expressible) :
  c.Spelled c.render
  := by
  have hkeys : engineFields.Nodup := by decide
  constructor
  · exact Toml.isStruct_table hkeys (List.Sublist.refl _)
  · exact Toml.field_table hkeys (by simp) (Toml.isMemory_ofMemory h.memory)
  · exact Toml.field_table hkeys (by simp) (Toml.isUnsigned_of_storable h.instances)
  · exact Toml.field_table hkeys (by simp) (Toml.isUnsigned_of_storable h.threads)
  · exact Toml.field_table hkeys (by simp) (Toml.isUnsigned_of_storable h.epoch)

/-- The configuration of the registry client is written as it is. -/
theorem RegistryConfig.spelled_render {c : RegistryConfig} (h : c.Expressible) :
  c.Spelled c.render
  := by
  have hkeys : registryFields.Nodup := by decide
  constructor
  · exact Toml.isStruct_table hkeys (List.Sublist.refl _)
  · exact Toml.field_table hkeys (by simp) rfl
  · exact Toml.field_table hkeys (by simp) rfl
  · exact Toml.field_table hkeys (by simp) (Toml.isUnsigned_of_storable h.interval)
  · exact Toml.field_table hkeys (by simp) rfl

/-- The tuning of the ingress is written as it is. -/
theorem HttpConfig.spelled_render {c : HttpConfig} (h : c.Expressible) :
  c.Spelled c.render
  := by
  have hkeys : httpFields.Nodup := by decide
  constructor
  · exact Toml.isStruct_table hkeys (List.Sublist.refl _)
  · exact Toml.field_table hkeys (by simp) (Toml.isUnsigned_of_storable h.timeout)
  · exact Toml.field_table hkeys (by simp) (Toml.isUnsigned_of_storable h.concurrency)
  · exact Toml.field_table hkeys (by simp) (Toml.isMemory_ofMemory h.body)
  · exact Toml.field_table hkeys (by simp) rfl

/-- The limits of a tenant are written as they are. -/
theorem SandboxLimits.spelled_render {l : SandboxLimits} (h : l.Expressible) :
  l.Spelled l.render
  := by
  have hkeys : limitsFields.Nodup := by decide
  constructor
  · exact Toml.isStruct_table hkeys (List.Sublist.refl _)
  · exact Toml.field_table hkeys (by simp) (Toml.isMemory_ofMemory h.memory)
  · exact Toml.field_table hkeys (by simp) (Toml.isUnsigned_of_storable h.instances)
  · exact Toml.field_table hkeys (by simp) (Toml.isUnsigned_of_storable h.tables)
  · exact Toml.field_table hkeys (by simp) (Toml.isUnsigned_of_storable h.epoch)
  · obtain ⟨ms, hms, hwall⟩ := h.wall
    have hmillis : (Toml.ofUnsigned (l.maxWallDuration / 1000000)).IsMillis l.maxWallDuration := by
      use ms
      rw [hwall, Nat.mul_div_cancel _ (by decide)]
      exact ⟨Toml.isUnsigned_of_storable hms, rfl⟩
    exact Toml.field_table hkeys (by simp) hmillis
  · exact Toml.field_table hkeys (by simp) (Toml.isMemory_ofMemory h.body)
  · exact Toml.field_table hkeys (by simp) (Toml.isMemory_ofMemory h.quota)
  · exact Toml.field_table hkeys (by simp) (Toml.isUnsigned_ofUnsigned h.cpus)
  · have hrules : Toml.IsArray Toml.IsString (.array (l.egressAllow.map .string))
        l.egressAllow := by
      refine ⟨_, rfl, ?_⟩
      rw [List.forall₂_map_left_iff, List.forall₂_same]
      intro rule _
      rfl
    exact Toml.field_table hkeys (by simp) hrules
  · exact Toml.field_table hkeys (by simp) rfl

/-- A source is written as it is. -/
theorem ComponentSource.spelled_render (source : ComponentSource) :
  source.Spelled source.render
  := by
  have hoci : ociFields.Nodup := by decide
  cases source with
  | oci reference pin =>
      have hreference : Toml.IsString (.string reference) reference := rfl
      cases pin with
      | none =>
          refine ⟨"oci", .table [("reference", .string reference)], ?_, rfl, ?_, ?_, ?_, ?_⟩
          · left
            exact ⟨_, rfl, rfl, rfl⟩
          · rintro items ⟨⟩
          · exact Toml.isStruct_table hoci ((List.nil_sublist _).cons_cons _)
          · exact Toml.required_table (by simp) (by simp) hreference
          · exact Toml.field_default (by simp)
      | some pin =>
          have hpin : ∃ s, Toml.IsString (.string pin) s ∧ some pin = some s := ⟨pin, rfl, rfl⟩
          refine ⟨"oci", .table [("reference", .string reference), ("pin", .string pin)],
            ?_, rfl, ?_, ?_, ?_, ?_⟩
          · left
            exact ⟨_, rfl, rfl, rfl⟩
          · rintro items ⟨⟩
          · exact Toml.isStruct_table hoci (List.Sublist.refl _)
          · exact Toml.required_table hoci (by simp) hreference
          · exact Toml.field_table hoci (by simp) hpin
  | file path =>
      have hfile : fileFields.Nodup := by decide
      have hpath : Toml.IsString (.string path) path := rfl
      refine ⟨"file", .table [("path", .string path)], ?_, rfl, ?_, ?_, ?_⟩
      · left
        exact ⟨_, rfl, rfl, rfl⟩
      · rintro items ⟨⟩
      · exact Toml.isStruct_table hfile (List.Sublist.refl _)
      · exact Toml.required_table hfile (by simp) hpath

/-- A map is written as it is. -/
theorem isTexts_render (m : ConfigMap) :
  Toml.IsTexts (.table (m.entries.map fun e => (e.1, .string e.2))) m
  := by
  refine ⟨m.entries.map fun e => (e.1, e.2), ?_, ?_⟩
  · left
    simp
  · have hkeys : ((m.entries.map fun e => (e.1, e.2)).reverse.map Prod.fst).Nodup := by
      rw [List.map_reverse, List.nodup_reverse, List.map_map]
      apply m.nodupKeys
    intro key
    ext s
    rw [Toml.lookup_eq_some_iff hkeys, List.mem_reverse, List.mem_map]
    rw [← Option.mem_def, AList.mem_lookup_iff]
    constructor
    · intro hmem
      exact ⟨_, hmem, rfl⟩
    · rintro ⟨⟨key', s'⟩, hmem, heq⟩
      obtain ⟨rfl, rfl⟩ := Prod.mk.inj heq
      apply hmem

/-- A tenant with limits in range is written as it is. -/
theorem TenantConfig.spelled_render {t : TenantConfig} (h : t.limits.Expressible) :
  t.Spelled t.render
  := by
  have hkeys : tenantFields.Nodup := by decide
  have hname : Toml.IsString (.string t.name) t.name := rfl
  constructor
  · exact Toml.isStruct_table hkeys (List.Sublist.refl _)
  · exact Toml.required_table hkeys (by simp) hname
  · exact Toml.required_table hkeys (by simp) t.component.spelled_render
  · exact Toml.field_table hkeys (by simp) (SandboxLimits.spelled_render h)
  · exact Toml.field_table hkeys (by simp) (isTexts_render t.config)

/-- A configuration in range is written as it is. -/
theorem Config.spelled_render {isSocketAddr : String → Bool} {c : Config}
    (h : c.Expressible isSocketAddr) :
  c.Spelled isSocketAddr c.render
  := by
  have hfields : configFields.Nodup := by decide
  have hitems : Toml.IsArray (fun w t => TenantConfig.Spelled w t)
      (.array (c.tenants.map TenantConfig.render)) c.tenants := by
    refine ⟨_, rfl, ?_⟩
    rw [List.forall₂_map_left_iff, List.forall₂_same]
    intro t ht
    apply TenantConfig.spelled_render (h.tenants t ht)
  by_cases hbind : c.bind = "127.0.0.1:8080"
  · rw [render, if_pos hbind, List.nil_append]
    have hkeys : ["tenants", "engine", "registry", "http"].Nodup := by decide
    constructor
    · exact Toml.isStruct_table hfields (List.sublist_cons_self _ _)
    · rw [hbind]
      exact Toml.field_default (by simp)
    · exact Toml.field_table hkeys (by simp) hitems
    · exact Toml.field_table hkeys (by simp) (EngineConfig.spelled_render h.engine)
    · exact Toml.field_table hkeys (by simp) (RegistryConfig.spelled_render h.registry)
    · exact Toml.field_table hkeys (by simp) (HttpConfig.spelled_render h.http)
  · rw [render, if_neg hbind, List.singleton_append]
    have haddr : Toml.IsString (.string c.bind) c.bind ∧ isSocketAddr c.bind = true :=
      ⟨rfl, h.bind.resolve_right hbind⟩
    constructor
    · exact Toml.isStruct_table hfields (List.Sublist.refl _)
    · exact Toml.field_table hfields (by simp) haddr
    · exact Toml.field_table hfields (by simp) hitems
    · exact Toml.field_table hfields (by simp) (EngineConfig.spelled_render h.engine)
    · exact Toml.field_table hfields (by simp) (RegistryConfig.spelled_render h.registry)
    · exact Toml.field_table hfields (by simp) (HttpConfig.spelled_render h.http)

/-! ### What is written can be stored -/

theorem EngineConfig.storable_render {c : EngineConfig} (h : c.Expressible) :
  c.render.Storable
  := by
  apply Toml.Storable.table
  simp only [List.forall_mem_cons]
  exact ⟨.string _, Toml.storable_ofUnsigned h.instances, Toml.storable_ofUnsigned h.threads,
    Toml.storable_ofUnsigned h.epoch, List.forall_mem_nil _⟩

theorem RegistryConfig.storable_render {c : RegistryConfig} (h : c.Expressible) :
  c.render.Storable
  := by
  apply Toml.Storable.table
  simp only [List.forall_mem_cons]
  exact ⟨.string _, .boolean _, Toml.storable_ofUnsigned h.interval, .string _,
    List.forall_mem_nil _⟩

theorem HttpConfig.storable_render {c : HttpConfig} (h : c.Expressible) :
  c.render.Storable
  := by
  apply Toml.Storable.table
  simp only [List.forall_mem_cons]
  exact ⟨Toml.storable_ofUnsigned h.timeout, Toml.storable_ofUnsigned h.concurrency, .string _,
    .string _, List.forall_mem_nil _⟩

theorem SandboxLimits.storable_render {l : SandboxLimits} (h : l.Expressible) :
  l.render.Storable
  := by
  have hwall : l.maxWallDuration / 1000000 < 2 ^ 63 := by
    obtain ⟨ms, hms, hwall⟩ := h.wall
    rw [hwall, Nat.mul_div_cancel _ (by decide)]
    apply hms
  have hrules : (Toml.array (l.egressAllow.map .string)).Storable := by
    apply Toml.Storable.array
    intro v hv
    obtain ⟨rule, -, rfl⟩ := List.mem_map.mp hv
    apply Toml.Storable.string
  apply Toml.Storable.table
  simp only [List.forall_mem_cons]
  exact ⟨.string _, Toml.storable_ofUnsigned h.instances, Toml.storable_ofUnsigned h.tables,
    Toml.storable_ofUnsigned h.epoch, Toml.storable_ofUnsigned hwall, .string _, .string _,
    Toml.storable_ofUnsigned (h.cpus.trans (by decide)), hrules, .boolean _, List.forall_mem_nil _⟩

theorem ComponentSource.storable_render (source : ComponentSource) :
  source.render.Storable
  := by
  cases source with
  | oci reference pin =>
      apply Toml.Storable.table
      simp only [List.forall_mem_cons]
      refine ⟨.string _, .string _, ?_⟩
      cases pin with
      | none => apply List.forall_mem_nil
      | some pin => exact List.forall_mem_singleton.mpr (.string _)
  | file path =>
      apply Toml.Storable.table
      simp only [List.forall_mem_cons]
      exact ⟨.string _, .string _, List.forall_mem_nil _⟩

theorem TenantConfig.storable_render {t : TenantConfig} (h : t.limits.Expressible) :
  t.render.Storable
  := by
  have hconfig : (Toml.table (t.config.entries.map fun e => (e.1, .string e.2))).Storable := by
    apply Toml.Storable.table
    intro e he
    obtain ⟨text, -, rfl⟩ := List.mem_map.mp he
    apply Toml.Storable.string
  apply Toml.Storable.table
  simp only [List.forall_mem_cons]
  exact ⟨.string _, t.component.storable_render, SandboxLimits.storable_render h, hconfig,
    List.forall_mem_nil _⟩

theorem Config.storable_render {isSocketAddr : String → Bool} {c : Config}
    (h : c.Expressible isSocketAddr) :
  c.render.Storable
  := by
  have htenants : (Toml.array (c.tenants.map TenantConfig.render)).Storable := by
    apply Toml.Storable.array
    intro v hv
    obtain ⟨t, ht, rfl⟩ := List.mem_map.mp hv
    apply TenantConfig.storable_render (h.tenants t ht)
  apply Toml.Storable.table
  rw [List.forall_mem_append]
  constructor
  · split
    · apply List.forall_mem_nil
    · exact List.forall_mem_singleton.mpr (.string _)
  · simp only [List.forall_mem_cons]
    exact ⟨htenants, EngineConfig.storable_render h.engine,
      RegistryConfig.storable_render h.registry, HttpConfig.storable_render h.http,
      List.forall_mem_nil _⟩

/-- Which configurations can be written down: up to how its maps are stored, a configuration is
read from some document exactly when its address is one, or the default, and its numbers are in
range.  Byte counts have 64 bits, since they can be texts; `cpus` has 32 bits, the time of an
invocation is a whole number of milliseconds, and all other numbers have the 63 bits of an
unsigned integer in a document. -/
theorem Config.expressible_iff {isSocketAddr : String → Bool} {c : Config} :
  (∃ doc c', doc.Storable ∧ Config.deserialize isSocketAddr doc = .ok c' ∧ c'.Alike c)
    ↔ c.Expressible isSocketAddr
  := by
  constructor
  · rintro ⟨doc, c', hdoc, hread, hsame⟩
    apply (spelled_of_deserialize hread hsame).expressible hdoc
  · intro h
    obtain ⟨c', hread, hsame⟩ := deserialize_of_spelled (spelled_render h)
    exact ⟨c.render, c', storable_render h, hread, hsame⟩

end Ember
