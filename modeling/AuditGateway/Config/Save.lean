import AuditGateway.Config.Load

set_option relaxedAutoImplicit false
set_option autoImplicit false

/-!
# Saving the configuration

A change of the targets or of the settings is written into the file that was loaded: the file is
parsed as a document, what belongs to the change is set or removed, and the document is printed.
What is written for the targets is read back when no number in it is too large to be written; what
is written for the settings takes away a section that is written inline, with all that is in it.

## Main definitions

* `targetEntries`, `writeTargets` — the targets in the file.
* `TargetConfig.Typed`, `TargetConfig.Fits` — what their types say, and which can be written.

## Main results

* `readTarget_targetEntries` — a target as it is read back.
* `writeTargets_loads` — the targets round-trip if and only if they fit.
-/

namespace AuditGateway

/-! ## What is written of the targets -/

/-- A text in the document. -/
def TomlItem.text (s : String) : TomlItem := .value (.string s)

/-- A number in the document. -/
def TomlItem.number (n : ℤ) : TomlItem := .value (.integer n)

/-- A list of texts in the document. -/
def TomlItem.texts (l : List String) : TomlItem := .value (.array (l.map .string))

/-- The table of a group. -/
def groupEntries (g : SummariseGroup) : Entries TomlItem :=
  let table : Entries TomlItem := []
  let table := table.setSome "name" (g.name.map .text)
  let table := table.setSome "client" (g.client.map .text)
  let table := table.set "nodes" (.texts g.nodes)
  let names : Entries TomlItem := g.names.map fun e => (e.1, .text e.2)
  table.setSome "names" (if names.isEmpty then none else some (.table true names))

/-- Defaults are left out, but for the interval. -/
def targetEntries (t : TargetConfig) : Entries TomlItem :=
  let defaults : TargetConfig := ⟨"x", ⟨"127.0.0.1:1"⟩, "opc.tcp://x", 60, .none, 50, 10, []⟩
  let table : Entries TomlItem := []
  let table := table.set "name" (.text t.name)
  let table := table.set "listen" (.text t.listen.text)
  let table := table.set "endpoint_url" (.text t.endpointUrl)
  let table := table.set "discovery_interval_secs" (.number (asI64 t.discoveryIntervalSecs))
  let table := table.setSome "min_security"
    (if t.minSecurity ≠ .none then some (.text t.minSecurity.name) else none)
  let table := table.setSome "max_connections"
    (if t.maxConnections ≠ defaults.maxConnections then some (.number (asI64 t.maxConnections))
    else none)
  let table := table.setSome "max_connections_per_address"
    (if t.maxConnectionsPerAddress ≠ defaults.maxConnectionsPerAddress then
      some (.number (asI64 t.maxConnectionsPerAddress))
    else none)
  table.setSome "summarise"
    (if t.summarise.isEmpty then none else some (.tables (t.summarise.map groupEntries)))

/-- Replaces the targets in the file, keeping everything else. -/
def targetsWritten (doc : Entries TomlItem) (targets : List TargetConfig) : Entries TomlItem :=
  if targets.isEmpty then doc.remove "targets"
  else doc.set "targets" (.tables (targets.map targetEntries))

/-- The text of the file with new targets, if the old one can be parsed. -/
def writeTargets (x : LoadCrates) (text : String) (targets : List TargetConfig) : Option String :=
  (x.document text).map fun doc => x.print (targetsWritten doc targets)

/-! ## What is read back of the targets -/

/-- What the types of a target say: its address is read from its text, its numbers have 64 bits, and
the names in its groups are in order. -/
structure TargetConfig.Typed (x : LoadCrates) (t : TargetConfig) : Prop where
  listen : x.socketAddr t.listen.text = some t.listen
  discoveryIntervalSecs : t.discoveryIntervalSecs < 2 ^ 64
  maxConnections : t.maxConnections < 2 ^ 64
  maxConnectionsPerAddress : t.maxConnectionsPerAddress < 2 ^ 64
  names : ∀ g ∈ t.summarise, Entries.Ordered g.names

/-- The numbers of a target are not too large to be written. -/
structure TargetConfig.Fits (t : TargetConfig) : Prop where
  discoveryIntervalSecs : t.discoveryIntervalSecs < 2 ^ 63
  maxConnections : t.maxConnections < 2 ^ 63
  maxConnectionsPerAddress : t.maxConnectionsPerAddress < 2 ^ 63

/-- What is read of a number that was written. -/
def readBack (n : ℕ) : Option ℕ := if n < 2 ^ 63 then some n else none

/-- Names that are in order stay in order. -/
theorem ordered_names {names : List (String × String)} (h : Entries.Ordered names) :
    Entries.Ordered (names.map fun e => (e.1, TomlItem.text e.2)) :=
  List.pairwise_map.2 h

/-- A table of names can be written. -/
theorem document_names {names : List (String × String)} (h : Entries.Ordered names) :
    Document (names.map fun e => (e.1, TomlItem.text e.2)) := by
  refine ⟨ordered_names h, fun e he => ?_⟩
  obtain ⟨_, -, rfl⟩ := List.mem_map.1 he
  exact .string _

/-- A table of names is read as it was written. -/
theorem saidEntries_names (names : List (String × String)) :
    saidEntries (names.map fun e => (e.1, TomlItem.text e.2)) =
      names.map fun e => (e.1, .string e.2) := by
  induction names with
  | nil => rfl
  | cons e names ih =>
    rw [List.map_cons, saidEntries, List.map_cons, ← ih]
    rfl

/-- The table of a group can be written. -/
theorem document_groupEntries {g : SummariseGroup} (h : Entries.Ordered g.names) :
    Document (groupEntries g) := by
  have htext : ∀ o : Option String, ∀ v ∈ o.map TomlItem.text, v.Ordered := by
    intro o v hv
    obtain ⟨s, -, rfl⟩ := Option.mem_map.1 hv
    exact .string s
  refine Document.setSome (((Document.nil.setSome "name" (htext _)).setSome "client"
    (htext _)).set "nodes" (.strings _)) "names" fun v hv => ?_
  split_ifs at hv
  · cases hv
  · obtain rfl := Option.some.inj hv
    exact .table true _ (document_names h).ordered (document_names h).items

/-- The fields of a group as they are read. -/
theorem get_said_groupEntries {g : SummariseGroup} (h : Entries.Ordered g.names) (key : String) :
    Entries.get (saidEntries (groupEntries g)) key =
      if key = "names" then
        if g.names = [] then none else some (.table (g.names.map fun e => (e.1, .string e.2)))
      else if key = "nodes" then some (.array (g.nodes.map .string))
      else if key = "client" then g.client.map .string
      else if key = "name" then g.name.map .string
      else none := by
  have hsaid : (TomlItem.table true (g.names.map fun e => (e.1, TomlItem.text e.2))).said =
      some (.table (g.names.map fun e => (e.1, .string e.2))) := by
    rw [said_table (.inl rfl), saidEntries_names]
  have htext (o : Option String) : (o.map TomlItem.text).bind TomlItem.said = o.map .string := by
    cases o <;> rfl
  rw [get_saidEntries (document_groupEntries h).ordered, groupEntries]
  simp only [Entries.get_set, Entries.get_setSome, Entries.get_nil, Option.or_none,
    List.isEmpty_map, List.isEmpty_iff]
  by_cases hnames : key = "names"
  · subst hnames
    by_cases hempty : g.names = [] <;> simp [hempty, hsaid]
  by_cases hnodes : key = "nodes"
  · subst hnodes
    rfl
  by_cases hclient : key = "client"
  · subst hclient
    simpa using htext g.client
  by_cases hname : key = "name"
  · subst hname
    simpa using htext g.name
  · simp [hnames, hnodes, hclient, hname]

/-- A group is read back. -/
theorem readGroup_groupEntries {g : SummariseGroup} (h : Entries.Ordered g.names) :
    readGroup (.table (saidEntries (groupEntries g))) = some g := by
  have hget := get_said_groupEntries h
  have hknown :
      Entries.known (saidEntries (groupEntries g)) ["name", "client", "nodes", "names"] := by
    refine (Entries.known_iff ..).2 fun key hkey => ?_
    rw [hget] at hkey
    by_contra hnot
    simp only [List.mem_cons, List.not_mem_nil, or_false, not_or] at hnot
    simp [hnot] at hkey
  have hname : Fields.field ⟨saidEntries (groupEntries g), true⟩ "name" (Toml.asSome Toml.asString)
      none = some g.name := by
    cases hname : g.name <;> simp [Fields.field, hget, hname, Toml.asSome, Toml.asString]
  have hclient : Fields.field ⟨saidEntries (groupEntries g), true⟩ "client"
      (Toml.asSome Toml.asString) none = some g.client := by
    cases hclient : g.client <;> simp [Fields.field, hget, hclient, Toml.asSome, Toml.asString]
  have hnodes : Fields.field ⟨saidEntries (groupEntries g), true⟩ "nodes" Toml.asStrings [] =
      some g.nodes := by
    simp [Fields.field, hget, asStrings_array]
  have hnames : Fields.field ⟨saidEntries (groupEntries g), true⟩ "names" Toml.asTexts [] =
      some g.names := by
    by_cases hempty : g.names = []
    · simp [Fields.field, hget, hempty]
    · simp [Fields.field, hget, hempty, asTexts_table]
  rw [readGroup, Toml.fields, if_pos hknown]
  simp only [Option.bind_eq_bind, Option.bind_some, hname, hclient, hnodes, hnames]

/-- The table of a target can be written. -/
theorem document_targetEntries {x : LoadCrates} {t : TargetConfig} (h : t.Typed x) :
    Document (targetEntries t) := by
  have hgroups : (TomlItem.tables (t.summarise.map groupEntries)).Ordered := by
    have hgroup : ∀ es ∈ t.summarise.map groupEntries, Document es := by
      intro es hes
      obtain ⟨g, hg, rfl⟩ := List.mem_map.1 hes
      exact document_groupEntries (h.names g hg)
    exact .tables _ (fun es hes => (hgroup es hes).ordered) fun es hes => (hgroup es hes).items
  have hif : ∀ {p : Prop} [Decidable p] {item : TomlItem}, item.Ordered →
      ∀ v ∈ (if p then some item else none), v.Ordered := by
    intro p _ item hitem v hv
    split_ifs at hv
    · exact Option.some.inj hv ▸ hitem
    · cases hv
  have hifNot : ∀ v ∈ (if t.summarise.isEmpty then none
      else some (TomlItem.tables (t.summarise.map groupEntries))), v.Ordered := by
    intro v hv
    split_ifs at hv
    · cases hv
    · exact Option.some.inj hv ▸ hgroups
  unfold targetEntries
  exact (((((((Document.nil.set _ (.string _)).set _ (.string _)).set _ (.string _)).set _
    (.integer _)).setSome _ (hif (.string _))).setSome _ (hif (.integer _))).setSome _
    (hif (.integer _))).setSome _ hifNot

/-- The fields of a target as they are read. -/
theorem get_said_targetEntries {x : LoadCrates} {t : TargetConfig} (h : t.Typed x) (key : String) :
    Entries.get (saidEntries (targetEntries t)) key =
      if key = "summarise" then
        if t.summarise = [] then none
        else some (.array (t.summarise.map fun g => .table (saidEntries (groupEntries g))))
      else if key = "max_connections_per_address" then
        if t.maxConnectionsPerAddress = 10 then none
        else some (.integer (asI64 t.maxConnectionsPerAddress))
      else if key = "max_connections" then
        if t.maxConnections = 50 then none else some (.integer (asI64 t.maxConnections))
      else if key = "min_security" then
        if t.minSecurity = .none then none else some (.string t.minSecurity.name)
      else if key = "discovery_interval_secs" then
        some (.integer (asI64 t.discoveryIntervalSecs))
      else if key = "endpoint_url" then some (.string t.endpointUrl)
      else if key = "listen" then some (.string t.listen.text)
      else if key = "name" then some (.string t.name)
      else none := by
  have htext (s : String) : (TomlItem.text s).said = some (.string s) := rfl
  have hnumber (n : ℤ) : (TomlItem.number n).said = some (.integer n) := rfl
  rw [get_saidEntries (document_targetEntries h).ordered, targetEntries]
  simp only [Entries.get_set, Entries.get_setSome, Entries.get_nil, List.isEmpty_iff]
  by_cases hsummarise : key = "summarise"
  · subst hsummarise
    by_cases hempty : t.summarise = []
    · simp [hempty]
    · have hmap : t.summarise.map groupEntries ≠ [] := by simpa using hempty
      simp [hempty, said_tables hmap, List.map_map, Function.comp_def]
  by_cases haddress : key = "max_connections_per_address"
  · subst haddress
    by_cases hdefault : t.maxConnectionsPerAddress = 10 <;> simp [hdefault, hnumber]
  by_cases hconnections : key = "max_connections"
  · subst hconnections
    by_cases hdefault : t.maxConnections = 50 <;> simp [hdefault, hnumber]
  by_cases hsecurity : key = "min_security"
  · subst hsecurity
    by_cases hdefault : t.minSecurity = .none <;> simp [hdefault, htext]
  simp only [hsummarise, haddress, hconnections, hsecurity, if_false]
  split_ifs <;> rfl

/-- **A target is read back** if its numbers are, and is not read otherwise. -/
theorem readTarget_targetEntries {x : LoadCrates}
    (hvariant : ∀ name, x.variant (.string name) = some name) {t : TargetConfig}
    (h : t.Typed x) :
    readTarget x (.table (saidEntries (targetEntries t))) = (do
      let discoveryIntervalSecs ← readBack t.discoveryIntervalSecs
      let maxConnections ← readBack t.maxConnections
      let maxConnectionsPerAddress ← readBack t.maxConnectionsPerAddress
      some { t with discoveryIntervalSecs, maxConnections, maxConnectionsPerAddress }) := by
  have hget := get_said_targetEntries h
  have hknown : Entries.known (saidEntries (targetEntries t)) targetKeys := by
    refine (Entries.known_iff ..).2 fun key hkey => ?_
    rw [hget] at hkey
    by_contra hnot
    simp only [targetKeys, List.mem_cons, List.not_mem_nil, or_false, not_or] at hnot
    simp [hnot] at hkey
  set f : Fields := ⟨saidEntries (targetEntries t), true⟩ with hf
  have hname : f.required "name" Toml.asString = some t.name := by
    simp [hf, Fields.required, hget, Toml.asString]
  have hlisten : f.required "listen" (fun v => v.asString.bind x.socketAddr) = some t.listen := by
    simp [hf, Fields.required, hget, Toml.asString, h.listen]
  have hurl : f.required "endpoint_url" Toml.asString = some t.endpointUrl := by
    simp [hf, Fields.required, hget, Toml.asString]
  have hdiscovery : f.field "discovery_interval_secs" (Toml.asUInt 64) 60 =
      readBack t.discoveryIntervalSecs := by
    rw [readBack, ← asUInt_asI64 h.discoveryIntervalSecs]
    simp [hf, Fields.field, hget]
  have hsecurity : f.field "min_security" (fun v => (x.variant v).bind MinSecurity.ofName) .none =
      some t.minSecurity := by
    by_cases hdefault : t.minSecurity = .none
    · simp [hf, Fields.field, hget, hdefault]
    · simp [hf, Fields.field, hget, hdefault, hvariant, MinSecurity.ofName_name]
  have hconnections : f.field "max_connections" (Toml.asUInt 64) 50 =
      readBack t.maxConnections := by
    rw [readBack, ← asUInt_asI64 h.maxConnections]
    by_cases hdefault : t.maxConnections = 50
    · rw [hdefault, asUInt_asI64 (by norm_num)]
      simp [hf, Fields.field, hget, hdefault]
    · simp [hf, Fields.field, hget, hdefault]
  have haddress : f.field "max_connections_per_address" (Toml.asUInt 64) 10 =
      readBack t.maxConnectionsPerAddress := by
    rw [readBack, ← asUInt_asI64 h.maxConnectionsPerAddress]
    by_cases hdefault : t.maxConnectionsPerAddress = 10
    · rw [hdefault, asUInt_asI64 (by norm_num)]
      simp [hf, Fields.field, hget, hdefault]
    · simp [hf, Fields.field, hget, hdefault]
  have hsummarise : f.field "summarise" (Toml.asList readGroup) [] = some t.summarise := by
    by_cases hempty : t.summarise = []
    · simp [hf, Fields.field, hget, hempty]
    · have hread := mapM_map_some (f := readGroup) fun g hg => readGroup_groupEntries (h.names g hg)
      simp [hf, Fields.field, hget, hempty, Toml.asList, Toml.asArray, hread]
  have hignore : f.field "ignore" (Toml.asList readRule) [] = some [] := by
    simp [hf, Fields.field, hget]
  rw [readTarget, Toml.fields, if_pos hknown, ← hf]
  simp only [Option.bind_eq_bind, Option.bind_some, hname, hlisten, hurl, hdiscovery, hsecurity,
    hconnections, haddress, hsummarise, hignore]

/-! ## What is loaded with other targets -/

/-- The file is written, and what is loaded from it are these targets, with every other setting as
it was; the other sections of the file are as they were. -/
def TargetsRoundTrip (x : LoadCrates) (base : String) (var : Option String) (text : String)
    (cfg : LoadedConfig) (targets : List TargetConfig) : Prop :=
  ∃ written, writeTargets x text targets = some written ∧
    load x base var written = .ok { cfg with targets := targets, loadFixes := [] } ∧
    ∃ before after, x.toml text = some before ∧ x.toml written = some after ∧
      ∀ key ≠ "targets", after.get key = before.get key

section Targets

variable {x : LoadCrates} {base : String} {var : Option String} {text : String}
  {targets : List TargetConfig}

/-- A target whose numbers fit is read as it was written. -/
theorem readTarget_of_fits (hvariant : ∀ name, x.variant (.string name) = some name)
    {t : TargetConfig} (h : t.Typed x) (hfits : t.Fits) :
    readTarget x (.table (saidEntries (targetEntries t))) = some { t with } := by
  rw [readTarget_targetEntries hvariant h, readBack, readBack, readBack,
    if_pos hfits.discoveryIntervalSecs, if_pos hfits.maxConnections,
    if_pos hfits.maxConnectionsPerAddress]
  rfl

/-- A target with a number that does not fit is not read. -/
theorem readTarget_of_not_fits (hvariant : ∀ name, x.variant (.string name) = some name)
    {t : TargetConfig} (h : t.Typed x) (hfits : ¬t.Fits) :
    readTarget x (.table (saidEntries (targetEntries t))) = none := by
  rw [readTarget_targetEntries hvariant h, readBack, readBack, readBack]
  by_cases hdiscovery : t.discoveryIntervalSecs < 2 ^ 63
  · by_cases hconnections : t.maxConnections < 2 ^ 63
    · have haddress : ¬t.maxConnectionsPerAddress < 2 ^ 63 :=
        fun haddress => hfits ⟨hdiscovery, hconnections, haddress⟩
      rw [if_neg haddress]
      simp
    · rw [if_neg hconnections]
      simp
  · rw [if_neg hdiscovery]
    rfl

/-- A document with new targets can be written. -/
theorem document_targetsWritten {doc : Entries TomlItem} (hdoc : Document doc)
    (htyped : ∀ t ∈ targets, t.Typed x) : Document (targetsWritten doc targets) := by
  have htarget : ∀ es ∈ targets.map targetEntries, Document es := by
    intro es hes
    obtain ⟨t, ht, rfl⟩ := List.mem_map.1 hes
    exact document_targetEntries (htyped t ht)
  unfold targetsWritten
  split_ifs
  · exact hdoc.remove _
  · exact hdoc.set _ (.tables _ (fun es hes => (htarget es hes).ordered)
      fun es hes => (htarget es hes).items)

/-- The sections of the file with other targets. -/
theorem get_said_targetsWritten {doc : Entries TomlItem} (hdoc : Document doc)
    (htyped : ∀ t ∈ targets, t.Typed x) (key : String) :
    Entries.get (saidEntries (targetsWritten doc targets)) key =
      if key = "targets" then
        if targets = [] then none
        else some (.array (targets.map fun t => .table (saidEntries (targetEntries t))))
      else Entries.get (saidEntries doc) key := by
  rw [get_saidEntries (document_targetsWritten hdoc htyped).ordered, get_saidEntries hdoc.ordered,
    targetsWritten]
  by_cases hempty : targets = []
  · rw [if_pos (by simpa using hempty), if_pos hempty, Entries.get_remove]
    split_ifs <;> rfl
  · have hmap : targets.map targetEntries ≠ [] := by simpa using hempty
    rw [if_neg (by simpa using hempty), if_neg hempty, Entries.get_set]
    split_ifs
    · rw [Option.bind_some, said_tables hmap, List.map_map]
      rfl
    · rfl

/-- What is read with other targets, if they are read. -/
theorem readConfig_targetsWritten {doc : Entries TomlItem} (hdoc : Document doc)
    (htyped : ∀ t ∈ targets, t.Typed x) {c : ReadConfig}
    (hread : readConfig x (saidEntries doc) = some c) :
    readConfig x (saidEntries (targetsWritten doc targets)) =
      (targets.mapM fun t => readTarget x (.table (saidEntries (targetEntries t)))).map
        fun ts => { c with targets := ts } := by
  have hget := get_said_targetsWritten hdoc htyped
  obtain ⟨hknown, hgateway, hweb, haudit, hexport, hmcp, -⟩ := readConfig_eq_some.1 hread
  have hknown' : Entries.known (saidEntries (targetsWritten doc targets)) rootKeys := by
    refine (Entries.known_iff ..).2 fun key hkey => ?_
    rw [hget] at hkey
    split_ifs at hkey with htargets
    · cases hkey
    · simp [htargets, rootKeys]
    · exact (Entries.known_iff ..).1 hknown key hkey
  have hother {α : Type} (key : String) (hkey : key ≠ "targets") (read : Toml → Option α)
      (default : α) :
      Fields.field ⟨saidEntries (targetsWritten doc targets), true⟩ key read default =
        Fields.field ⟨saidEntries doc, true⟩ key read default :=
    Fields.field_congr ((hget key).trans (if_neg hkey)) read default
  have htargets : Fields.field ⟨saidEntries (targetsWritten doc targets), true⟩ "targets"
      (Toml.asList (readTarget x)) [] =
        targets.mapM fun t => readTarget x (.table (saidEntries (targetEntries t))) := by
    by_cases hempty : targets = []
    · rw [Fields.field_none (by rw [hget, if_pos rfl, if_pos hempty]), hempty]
      rfl
    · rw [Fields.field_some (by rw [hget, if_pos rfl, if_neg hempty])]
      simp [Toml.asList, Toml.asArray, Function.comp_def]
  rw [readConfig, Toml.fields, if_pos hknown']
  simp only [Option.bind_eq_bind, Option.bind_some]
  rw [hother "gateway" (by decide), hother "web" (by decide), hother "audit" (by decide),
    hother "export" (by decide), hother "mcp" (by decide), hgateway, hweb, haudit, hexport, hmcp,
    htargets]
  cases targets.mapM fun t => readTarget x (.table (saidEntries (targetEntries t))) <;> rfl

/-- The configuration of a file with other targets. -/
theorem finish_targets {c : ReadConfig} {cfg : LoadedConfig}
    (hfinish : (c.config x.toConfigCrates base).finish x.toConfigCrates var = .ok cfg)
    (hvalid : Config.validate x.toConfigCrates { cfg with targets := targets } = .ok ()) :
    (({ c with targets := targets.map fun t => { t with } } : ReadConfig).config
        x.toConfigCrates base).finish x.toConfigCrates var =
      .ok { cfg with targets := targets, loadFixes := [] } := by
  obtain ⟨web, hweb, rfl, -⟩ := finish_eq_ok.1 hfinish
  have hmigrate : ∀ t ∈ targets,
      TargetSection.migrate x.toConfigCrates { t with } = ({ t with }, []) := fun t ht =>
    migrate_of_valid (validateSummarise_of_validateFrom (validateTargets_of_validate hvalid) t ht)
  have htargets : (targets.map fun t => ({ t with } : TargetSection)).map
      (fun t => (t.migrate x.toConfigCrates).1.toTargetConfig) = targets := by
    rw [List.map_map]
    conv_rhs => rw [← List.map_id targets]
    refine List.map_congr_left fun t ht => ?_
    rw [Function.comp_apply, hmigrate t ht]
    rfl
  have hfixes : (targets.map fun t => ({ t with } : TargetSection)).flatMap
      (fun t => (t.migrate x.toConfigCrates).2) = [] := by
    rw [List.flatMap_map]
    refine List.flatMap_eq_nil_iff.2 fun t ht => ?_
    rw [hmigrate t ht]
  refine finish_eq_ok.2 ⟨web, hweb, ?_, hvalid⟩
  simp only [ReadConfig.config, htargets, hfixes]

/-- **The targets round-trip** if and only if the file can be edited and every number in them is
less than 2⁶³. -/
theorem writeTargets_loads (hx : x.Lawful text fun doc => targetsWritten doc targets)
    {cfg : LoadedConfig} (hload : load x base var text = .ok cfg)
    (hvalid : Config.validate x.toConfigCrates { cfg with targets := targets } = .ok ())
    (htyped : ∀ t ∈ targets, t.Typed x) :
    TargetsRoundTrip x base var text cfg targets ↔
      (∃ doc, x.document text = some doc) ∧ ∀ t ∈ targets, t.Fits := by
  obtain ⟨es, c, htoml, hread, hfinish⟩ := load_eq_ok.1 hload
  -- the file after the edit of a document
  have hwritten {doc : Entries TomlItem} (hdoc : x.document text = some doc) :
      x.toml (x.print (targetsWritten doc targets)) =
        some (saidEntries (targetsWritten doc targets)) :=
    hx.print hdoc (document_targetsWritten (hx.document hdoc) htyped)
  have hreadBack {doc : Entries TomlItem} (hdoc : x.document text = some doc) :=
    readConfig_targetsWritten (hx.document hdoc) htyped
      (Option.some.inj ((hx.toml hdoc).symm.trans htoml) ▸ hread)
  constructor
  · rintro ⟨written, hwrite, hloads, -⟩
    obtain ⟨doc, hdoc, rfl⟩ := Option.map_eq_some_iff.1 hwrite
    refine ⟨⟨doc, hdoc⟩, fun t ht => ?_⟩
    by_contra hfits
    obtain ⟨es', c', htoml', hread', -⟩ := load_eq_ok.1 hloads
    obtain rfl := Option.some.inj ((hwritten hdoc).symm.trans htoml')
    rw [hreadBack hdoc, mapM_eq_none ht (readTarget_of_not_fits hx.variant (htyped t ht) hfits)]
      at hread'
    cases hread'
  · rintro ⟨⟨doc, hdoc⟩, hfits⟩
    have htargets := mapM_eq_some_map fun t ht =>
      readTarget_of_fits hx.variant (htyped t ht) (hfits t ht)
    refine ⟨_, Option.map_eq_some_iff.2 ⟨doc, hdoc, rfl⟩, ?_, _, _, hx.toml hdoc, hwritten hdoc,
      fun key hkey => ?_⟩
    · refine load_eq_ok.2 ⟨_, _, hwritten hdoc, ?_, finish_targets hfinish hvalid⟩
      rw [hreadBack hdoc, htargets]
      rfl
    · rw [get_said_targetsWritten (hx.document hdoc) htyped, if_neg hkey]

end Targets

/-! ### Two files with a target -/

/-- The crates for a file that is written as another one: every text is an address, `i=2258` is the
only node id. -/
def fileCrates (file : String) (doc : Entries TomlItem) (written : String)
    (edited : Entries TomlItem) : LoadCrates where
  parseNodeId s := if s = "i=2258" then some ⟨0, .numeric 2258⟩ else none
  escapeDebug := id
  toml s :=
    if s = file then some (saidEntries doc)
    else if s = written then some (saidEntries edited)
    else none
  document s := if s = file then some doc else if s = written then some edited else none
  print _ := written
  socketAddr s := some ⟨s⟩
  ipAddr s := some ⟨s⟩
  variant := Toml.asString

/-- The functions for one file and its successor keep the rules. -/
theorem fileCrates_lawful {file written : String} {doc : Entries TomlItem}
    {f : Entries TomlItem → Entries TomlItem} (hne : written ≠ file) (hdoc : Document doc) :
    (fileCrates file doc written (f doc)).Lawful file f := by
  have hdocument {d : Entries TomlItem}
      (h : (fileCrates file doc written (f doc)).document file = some d) : doc = d := by
    simpa [fileCrates] using h
  refine ⟨fun h => hdocument h ▸ hdoc, fun h => ?_, fun h _ => ?_, fun _ => rfl⟩
  · rw [← hdocument h]
    exact if_pos rfl
  · rw [← hdocument h]
    exact (if_neg hne).trans (if_pos rfl)

/-- A file that says only where the web UI listens. -/
def webFile : String := "[web]\nlisten = \"127.0.0.1:9000\"\n"

/-- A document that says where the web UI listens. -/
def webDocument : Entries TomlItem := [("web", .table true [("listen", .text "127.0.0.1:9000")])]

/-- The document about the web UI can be written. -/
theorem document_webDocument : Document webDocument := by
  refine ⟨List.pairwise_singleton .., List.forall_mem_singleton.2 ?_⟩
  exact .table true _ (List.pairwise_singleton ..) (List.forall_mem_singleton.2 (.string _))

/-- The configuration that it is read as. -/
def webOnly : LoadedConfig where
  web := { listen := ⟨"127.0.0.1:9000"⟩ }

/-- A target with a group of one node. -/
def clockTarget : TargetConfig where
  name := "plc1"
  listen := ⟨"0.0.0.0:4841"⟩
  endpointUrl := "opc.tcp://192.168.0.10:4840"
  minSecurity := .sign
  summarise := [{ client := "10.0.0.5", nodes := ["i=2258"], names := [("i=2258", "Clock")] }]

/-- A file with a summarised node. -/
def clockFile : String :=
  webFile ++ "\n[[targets]]\nname = \"plc1\"\nlisten = \"0.0.0.0:4841\"\n" ++
    "endpoint_url = \"opc.tcp://192.168.0.10:4840\"\ndiscovery_interval_secs = 60\n" ++
    "min_security = \"sign\"\n\n[[targets.summarise]]\nclient = \"10.0.0.5\"\nnodes = [\n  \"i=2258\",\n]\n" ++
    "\n[targets.summarise.names]\n\"i=2258\" = \"Clock\"\n"

/-- The target is added to the file. -/
theorem writeTargets_loads_clockTarget :
    TargetsRoundTrip
      (fileCrates webFile webDocument clockFile (targetsWritten webDocument [clockTarget])) "" none
      webFile webOnly [clockTarget] := by
  refine (writeTargets_loads (fileCrates_lawful (f := fun doc => targetsWritten doc [clockTarget])
    (by decide) document_webDocument) rfl rfl ?_).2 ⟨⟨webDocument, rfl⟩, ?_⟩
  · refine List.forall_mem_singleton.2 ⟨rfl, by decide, by decide, by decide, ?_⟩
    exact List.forall_mem_singleton.2 (List.pairwise_singleton ..)
  · exact List.forall_mem_singleton.2 ⟨by decide, by decide, by decide⟩

/-- A target that is discovered again after half the seconds there are. -/
def slowTarget : TargetConfig where
  name := "plc1"
  listen := ⟨"0.0.0.0:4841"⟩
  endpointUrl := "opc.tcp://192.168.0.10:4840"
  discoveryIntervalSecs := 2 ^ 63

/-- A file with an interval of more than 63 bits. -/
def slowFile : String :=
  webFile ++ "\n[[targets]]\nname = \"plc1\"\nlisten = \"0.0.0.0:4841\"\n" ++
    "endpoint_url = \"opc.tcp://192.168.0.10:4840\"\n" ++
    "discovery_interval_secs = -9223372036854775808\n"

/-- The interval of a valid target is written as a negative number, and the file no longer loads. -/
theorem not_loads_slowTarget :
    ∃ x : LoadCrates, (x.Lawful webFile fun doc => targetsWritten doc [slowTarget]) ∧
      load x "" none webFile = .ok webOnly ∧
      Config.validate x.toConfigCrates { webOnly with targets := [slowTarget] } = .ok () ∧
      slowTarget.Typed x ∧ ¬TargetsRoundTrip x "" none webFile webOnly [slowTarget] := by
  refine ⟨fileCrates webFile webDocument slowFile (targetsWritten webDocument [slowTarget]),
    fileCrates_lawful (f := fun doc => targetsWritten doc [slowTarget]) (by decide)
      document_webDocument, rfl, rfl, ⟨rfl, by decide, by decide, by decide, nofun⟩, ?_⟩
  rintro ⟨written, hwrite, hload, -⟩
  obtain ⟨doc, -, rfl⟩ := Option.map_eq_some_iff.1 hwrite
  obtain ⟨es, c, htoml, hread, -⟩ := load_eq_ok.1 hload
  have hnone : (((fileCrates webFile webDocument slowFile
      (targetsWritten webDocument [slowTarget])).toml slowFile).bind (readConfig
        (fileCrates webFile webDocument slowFile
          (targetsWritten webDocument [slowTarget])))).isNone := by decide +kernel
  rw [show (fileCrates _ _ _ _).toml slowFile = some es from htoml, Option.bind_some,
    hread] at hnone
  cases hnone

end AuditGateway
