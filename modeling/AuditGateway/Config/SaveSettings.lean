import AuditGateway.Config.Save

set_option relaxedAutoImplicit false
set_option autoImplicit false

/-!
# Saving the settings

The settings that the web UI changes are written into the sections of the file they belong to. A
section that has a header or dotted keys is edited; any other is replaced by a new one, and what
else was in it is gone.

## Main definitions

* `settingsWritten`, `writeSettings` — the settings in the file.
* `SettingsChange`, `LoadedConfig.withSettings` — a change of the settings.
* `SettingsRoundTrip` — the file has the new settings and everything else as before.
* `SettingsChange.Fits`, `GatewayKept`, `DatabaseKept` — when it has.

## Main results

* `readConfig_settingsWritten` — what is read of the file that is written.
* `writeSettings_loads` — the settings round-trip if and only if they fit and nothing is replaced.
-/

namespace AuditGateway

/-! ## What is written of the settings -/

/-- The gateway section as it is written. -/
def gatewayWritten (c : GatewayConfig) (gateway : Entries TomlItem) : Entries TomlItem :=
  gateway.setOpt "certificate_hostnames"
    (if c.certificateHostnames.isEmpty then none else some (.texts c.certificateHostnames))

/-- The audit section as it is written. -/
def auditWritten (a : AuditConfig) (audit : Entries TomlItem) : Entries TomlItem :=
  let audit := audit.set "retention_days" (.number a.retentionDays)
  let audit := audit.set "fail_mode" (.text a.failMode.name)
  let audit := audit.set "record_old_value" (.value (.boolean a.recordOldValue))
  audit.set "ignored_summary_secs" (.number (asI64 a.ignoredSummarySecs))

/-- The QuestDB section as it is written. -/
def questDbWritten (q : QuestDbSection) (t : Entries TomlItem) : Entries TomlItem :=
  let t := t.set "url" (.text q.url)
  let t := t.set "table" (.text q.table)
  let t := t.setOpt "token" (q.token.map .text)
  let t := t.setOpt "username" (q.username.map .text)
  let t := t.setOpt "password" (q.password.map .text)
  let t := t.setOpt "ca_file" (q.caFile.map .text)
  t.set "interval_secs" (.number (asI64 q.intervalSecs))

/-- The export section as it is written. -/
def exportWritten (c : ExportSections) (sections : Entries TomlItem) : Entries TomlItem :=
  match c.questdb with
  | none => sections.remove "questdb"
  | some q => sections.edit "questdb" true (questDbWritten q)

/-- The MCP section as it is written. -/
def mcpWritten (c : McpConfig) (mcp : Entries TomlItem) : Entries TomlItem :=
  (mcp.set "enabled" (.value (.boolean c.enabled))).remove "allow"

/-- All sections as they are written. -/
def sectionsWritten (config : LoadedConfig) (doc : Entries TomlItem) : Entries TomlItem :=
  let doc := doc.edit "gateway" true (gatewayWritten config.gateway)
  let doc := doc.edit "audit" true (auditWritten config.audit)
  let doc := doc.edit "export" false (exportWritten config.exports)
  if config.mcp.enabled ∨ doc.has "mcp" then doc.edit "mcp" true (mcpWritten config.mcp) else doc

/-- Writes the settings, changing only their keys. Syslog export is no longer supported. -/
def settingsWritten (config : LoadedConfig) (doc : Entries TomlItem) : Entries TomlItem :=
  let doc := sectionsWritten config doc
  let doc := doc.edit "export" false fun sections => sections.remove "syslog"
  if (doc.tableAt "export").isEmpty then doc.remove "export" else doc

/-- The text of the file with new settings, if the old one can be parsed. -/
def writeSettings (x : LoadCrates) (text : String) (config : LoadedConfig) : Option String :=
  (x.document text).map fun doc => x.print (settingsWritten config doc)

/-! ## The document -/

section Document

variable {t : Entries TomlItem}

/-- A text that is set or removed can be written. -/
theorem document_setText {key : String} {value : Option String} (h : Document t) :
    Document (t.setOpt key (value.map .text)) := by
  refine h.setOpt key fun v hv => ?_
  obtain ⟨s, -, rfl⟩ := Option.mem_map.1 hv
  exact .string s

/-- The gateway section can be written. -/
theorem document_gatewayWritten (c : GatewayConfig) (h : Document t) :
    Document (gatewayWritten c t) := by
  refine h.setOpt _ fun v hv => ?_
  split_ifs at hv
  · cases hv
  · exact Option.some.inj hv ▸ .strings _

/-- The audit section can be written. -/
theorem document_auditWritten (a : AuditConfig) (h : Document t) : Document (auditWritten a t) :=
  (((h.set _ (.integer _)).set _ (.string _)).set _ (.boolean _)).set _ (.integer _)

/-- The QuestDB section can be written. -/
theorem document_questDbWritten (q : QuestDbSection) (h : Document t) :
    Document (questDbWritten q t) :=
  (document_setText (document_setText (document_setText (document_setText
    ((h.set _ (.string _)).set _ (.string _)))))).set _ (.integer _)

/-- The export section can be written. -/
theorem document_exportWritten (c : ExportSections) (h : Document t) :
    Document (exportWritten c t) := by
  unfold exportWritten
  split
  · exact h.remove _
  · exact h.edit _ _ (document_questDbWritten _ (h.tableAt _))

/-- The MCP section can be written. -/
theorem document_mcpWritten (c : McpConfig) (h : Document t) : Document (mcpWritten c t) :=
  (h.set _ (.boolean _)).remove _

/-- All sections can be written. -/
theorem document_sectionsWritten (config : LoadedConfig) (h : Document t) :
    Document (sectionsWritten config t) := by
  have hgateway := h.edit "gateway" true (document_gatewayWritten config.gateway (h.tableAt _))
  have haudit := hgateway.edit "audit" true
    (document_auditWritten config.audit (hgateway.tableAt _))
  have hexport := haudit.edit "export" false
    (document_exportWritten config.exports (haudit.tableAt _))
  unfold sectionsWritten
  dsimp only
  split_ifs
  · exact hexport.edit "mcp" true (document_mcpWritten config.mcp (hexport.tableAt _))
  · exact hexport

/-- The document with new settings can be written. -/
theorem document_settingsWritten (config : LoadedConfig) (h : Document t) :
    Document (settingsWritten config t) := by
  have hsections := document_sectionsWritten config h
  have hsyslog := hsections.edit "export" false (f := fun sections => sections.remove "syslog")
    ((hsections.tableAt _).remove _)
  unfold settingsWritten
  dsimp only
  split_ifs
  · exact hsyslog.remove _
  · exact hsyslog

end Document

/-- The sections that are written. -/
theorem get_sectionsWritten (config : LoadedConfig) (doc : Entries TomlItem) (key : String) :
    (sectionsWritten config doc).get key =
      if key = "mcp" then
        if config.mcp.enabled ∨ doc.has "mcp" then
          some (.table (doc.headedAt "mcp" true) (mcpWritten config.mcp (doc.tableAt "mcp")))
        else none
      else if key = "export" then
        some (.table (doc.headedAt "export" false)
          (exportWritten config.exports (doc.tableAt "export")))
      else if key = "audit" then
        some (.table (doc.headedAt "audit" true) (auditWritten config.audit (doc.tableAt "audit")))
      else if key = "gateway" then
        some (.table (doc.headedAt "gateway" true)
          (gatewayWritten config.gateway (doc.tableAt "gateway")))
      else doc.get key := by
  set gateway := doc.edit "gateway" true (gatewayWritten config.gateway) with hgateway
  set audit := gateway.edit "audit" true (auditWritten config.audit) with haudit
  set sections := audit.edit "export" false (exportWritten config.exports) with hsections
  -- what is edited later is still as it was
  have haudit' : gateway.get "audit" = doc.get "audit" := by
    rw [hgateway, Entries.get_edit, if_neg (by decide)]
  have hexport' : audit.get "export" = doc.get "export" := by
    rw [haudit, hgateway, Entries.get_edit, if_neg (by decide), Entries.get_edit,
      if_neg (by decide)]
  have hmcp' : sections.get "mcp" = doc.get "mcp" := by
    rw [hsections, haudit, hgateway, Entries.get_edit, if_neg (by decide), Entries.get_edit,
      if_neg (by decide), Entries.get_edit, if_neg (by decide)]
  have hget : sections.get key = if key = "export" then
        some (.table (doc.headedAt "export" false)
          (exportWritten config.exports (doc.tableAt "export")))
      else if key = "audit" then
        some (.table (doc.headedAt "audit" true) (auditWritten config.audit (doc.tableAt "audit")))
      else if key = "gateway" then
        some (.table (doc.headedAt "gateway" true)
          (gatewayWritten config.gateway (doc.tableAt "gateway")))
      else doc.get key := by
    rw [hsections, Entries.get_edit, haudit, Entries.get_edit, hgateway, Entries.get_edit,
      ← hgateway, ← haudit, Entries.headedAt_congr hexport', Entries.tableAt_congr hexport',
      Entries.headedAt_congr haudit', Entries.tableAt_congr haudit']
  have hhas : sections.has "mcp" = doc.has "mcp" := by rw [Entries.has, Entries.has, hmcp']
  have hwritten : sectionsWritten config doc =
      if config.mcp.enabled ∨ sections.has "mcp" then
        sections.edit "mcp" true (mcpWritten config.mcp)
      else sections := rfl
  rw [hwritten, hhas]
  by_cases hmcp : config.mcp.enabled ∨ doc.has "mcp"
  · rw [if_pos hmcp, if_pos hmcp, Entries.get_edit, hget, Entries.headedAt_congr hmcp',
      Entries.tableAt_congr hmcp']
  · rw [if_neg hmcp, if_neg hmcp]
    by_cases hkey : key = "mcp"
    · subst hkey
      rw [if_pos rfl, hmcp']
      simpa [Entries.has] using (not_or.1 hmcp).2
    · rw [if_neg hkey, hget]

/-- What is left of the export section. -/
def exportLeft (c : ExportSections) (sections : Entries TomlItem) : Entries TomlItem :=
  (exportWritten c sections).remove "syslog"

/-- The sections of the file with other settings. -/
theorem get_settingsWritten (config : LoadedConfig) (doc : Entries TomlItem) (key : String) :
    (settingsWritten config doc).get key =
      if key = "export" then
        if exportLeft config.exports (doc.tableAt "export") = [] then none
        else some (.table (doc.headedAt "export" false)
          (exportLeft config.exports (doc.tableAt "export")))
      else (sectionsWritten config doc).get key := by
  have hget : (sectionsWritten config doc).get "export" = some (.table
      (doc.headedAt "export" false) (exportWritten config.exports (doc.tableAt "export"))) := by
    rw [get_sectionsWritten, if_neg (by decide), if_pos rfl]
  have htable := Entries.tableAt_of_get hget
  have hheaded : (sectionsWritten config doc).headedAt "export" false =
      doc.headedAt "export" false := by rw [Entries.headedAt, hget]
  set edited := (sectionsWritten config doc).edit "export" false
    fun sections => sections.remove "syslog" with hedited
  have hgetEdited (key : String) : edited.get key =
      if key = "export" then some (.table (doc.headedAt "export" false)
        (exportLeft config.exports (doc.tableAt "export")))
      else (sectionsWritten config doc).get key := by
    rw [hedited, Entries.get_edit, hheaded, htable, exportLeft]
  have hleft : edited.tableAt "export" = exportLeft config.exports (doc.tableAt "export") :=
    Entries.tableAt_of_get (by rw [hgetEdited, if_pos rfl])
  have hwritten : settingsWritten config doc =
      if (edited.tableAt "export").isEmpty then edited.remove "export" else edited := rfl
  rw [hwritten, hleft]
  by_cases hempty : exportLeft config.exports (doc.tableAt "export") = []
  · rw [if_pos (by simpa using hempty), if_pos hempty, Entries.get_remove, hgetEdited]
    split_ifs <;> rfl
  · rw [if_neg (by simpa using hempty), if_neg hempty, hgetEdited]

/-! ## What is read back of a section -/

section Sections

variable {x : LoadCrates} {t : Entries TomlItem}

/-- The keys of an edited table are known if those it had are, and the ones it got. -/
theorem known_of_get {es fs : Entries Toml} {keys : List String} (h : Entries.known es keys)
    (hget : ∀ key ∉ keys, fs.get key = none ∨ fs.get key = es.get key) :
    Entries.known fs keys := by
  refine (Entries.known_iff ..).2 fun key hkey => ?_
  by_contra hnot
  rcases hget key hnot with hnone | hsame
  · rw [hnone] at hkey
    cases hkey
  · exact hnot ((Entries.known_iff ..).1 h key (hsame ▸ hkey))

/-- What a gateway section is read as, key by key. -/
theorem readGateway_table {es : Entries Toml} {g : GatewayConfig} :
    readGateway (.table es) = some g ↔
      Entries.known es gatewayKeys ∧
        Fields.field ⟨es, true⟩ "application_name" Toml.asString "OPC UA Audit Gateway" =
          some g.applicationName ∧
        Fields.field ⟨es, true⟩ "application_uri" (Toml.asSome Toml.asString) none =
          some g.applicationUri ∧
        Fields.field ⟨es, true⟩ "pki_dir" Toml.asString "pki" = some g.pkiDir ∧
        Fields.field ⟨es, true⟩ "data_dir" Toml.asString "data" = some g.dataDir ∧
        Fields.field ⟨es, true⟩ "certificate_hostnames" Toml.asStrings [] =
          some g.certificateHostnames := by
  obtain ⟨name, uri, pki, data, hostnames⟩ := g
  rw [readGateway, Toml.fields]
  by_cases hknown : Entries.known es gatewayKeys
  · simp only [hknown, if_true, Option.bind_eq_bind, Option.bind_eq_some_iff, Option.some.injEq,
      GatewayConfig.mk.injEq, true_and]
    constructor
    · rintro ⟨_, rfl, n, hn, u, hu, p, hp, d, hd, c, hc, rfl, rfl, rfl, rfl, rfl⟩
      exact ⟨hn, hu, hp, hd, hc⟩
    · rintro ⟨hn, hu, hp, hd, hc⟩
      exact ⟨_, rfl, name, hn, uri, hu, pki, hp, data, hd, hostnames, hc, rfl, rfl, rfl, rfl, rfl⟩
  · simp [hknown]

/-- The gateway section is read with the new host names. -/
theorem readGateway_gatewayWritten (ht : Document t) {g : GatewayConfig}
    (h : readGateway (.table (saidEntries t)) = some g) (c : GatewayConfig) :
    readGateway (.table (saidEntries (gatewayWritten c t))) =
      some { g with certificateHostnames := c.certificateHostnames } := by
  have hget (key : String) : Entries.get (saidEntries (gatewayWritten c t)) key =
      if key = "certificate_hostnames" then
        if c.certificateHostnames = [] then none
        else some (.array (c.certificateHostnames.map .string))
      else Entries.get (saidEntries t) key := by
    rw [get_saidEntries (document_gatewayWritten c ht).ordered, get_saidEntries ht.ordered,
      gatewayWritten, Entries.get_setOpt]
    by_cases hkey : key = "certificate_hostnames"
    · by_cases hempty : c.certificateHostnames = []
      · simp [hkey, hempty]
      · simp [hkey, hempty, TomlItem.texts, TomlItem.said]
    · rw [if_neg hkey, if_neg hkey]
  obtain ⟨hknown, hname, huri, hpki, hdata, -⟩ := readGateway_table.1 h
  have hother {α : Type} {key : String} (hkey : key ≠ "certificate_hostnames")
      (read : Toml → Option α) (default : α) :
      Fields.field ⟨saidEntries (gatewayWritten c t), true⟩ key read default =
        Fields.field ⟨saidEntries t, true⟩ key read default :=
    Fields.field_congr ((hget key).trans (if_neg hkey)) read default
  refine readGateway_table.2 ⟨known_of_get hknown fun key hkey => .inr ?_,
    (hother (by decide) ..).trans hname, (hother (by decide) ..).trans huri,
    (hother (by decide) ..).trans hpki, (hother (by decide) ..).trans hdata, ?_⟩
  · rw [hget, if_neg]
    rintro rfl
    simp [gatewayKeys] at hkey
  · by_cases hempty : c.certificateHostnames = []
    · simp [Fields.field, hget, hempty]
    · simp [Fields.field, hget, hempty, asStrings_array]

/-- The audit section is read with the new settings and the database it had, if the interval is
not too large. -/
theorem readAudit_auditWritten (hvariant : ∀ name, x.variant (.string name) = some name)
    (ht : Document t) {old a : AuditConfig}
    (h : readAudit x (.table (saidEntries t)) = some old) (hdays : a.retentionDays < 2 ^ 32)
    (hsecs : a.ignoredSummarySecs < 2 ^ 64) :
    readAudit x (.table (saidEntries (auditWritten a t))) =
      (readBack a.ignoredSummarySecs).map fun _ => { a with database := old.database } := by
  have hget (key : String) : Entries.get (saidEntries (auditWritten a t)) key =
      if key = "ignored_summary_secs" then some (.integer (asI64 a.ignoredSummarySecs))
      else if key = "record_old_value" then some (.boolean a.recordOldValue)
      else if key = "fail_mode" then some (.string a.failMode.name)
      else if key = "retention_days" then some (.integer a.retentionDays)
      else Entries.get (saidEntries t) key := by
    rw [get_saidEntries (document_auditWritten a ht).ordered, get_saidEntries ht.ordered,
      auditWritten]
    simp only [Entries.get_set]
    split_ifs <;> rfl
  rw [readAudit, Toml.fields] at h
  by_cases hknown : Entries.known (saidEntries t) AuditConfig.keys
  swap
  · simp [hknown] at h
  have hdatabase : Fields.field ⟨saidEntries t, true⟩ "database" (Toml.asSome Toml.asString) none =
      some old.database := by
    simp only [hknown, if_true, Option.bind_eq_bind, Option.bind_eq_some_iff,
      Option.some.injEq] at h
    obtain ⟨_, rfl, database, hdatabase, -, -, -, -, -, -, -, -, rfl⟩ := h
    exact hdatabase
  have hknown' : Entries.known (saidEntries (auditWritten a t)) AuditConfig.keys := by
    refine known_of_get hknown fun key hkey => .inr ?_
    simp only [AuditConfig.keys, List.mem_cons, List.not_mem_nil, or_false, not_or] at hkey
    simp [hget, hkey]
  set f : Fields := ⟨saidEntries (auditWritten a t), true⟩ with hf
  have hdatabase' : f.field "database" (Toml.asSome Toml.asString) none = some old.database := by
    rw [← hdatabase]
    exact Fields.field_congr (by simp [hf, hget]) ..
  have hdays' : f.field "retention_days" (Toml.asUInt 32) 365 = some a.retentionDays := by
    rw [← asUInt_natCast hdays]
    simp [hf, Fields.field, hget]
  have hmode : f.field "fail_mode" (fun v => (x.variant v).bind FailMode.ofName) .failOpen =
      some a.failMode := by
    have hname : FailMode.ofName a.failMode.name = some a.failMode := FailMode.ofJson_name _
    simp [hf, Fields.field, hget, hvariant, hname]
  have hrecord : f.field "record_old_value" Toml.asBool true = some a.recordOldValue := by
    simp [hf, Fields.field, hget, Toml.asBool]
  have hsecs' : f.field "ignored_summary_secs" (Toml.asUInt 64) 3600 =
      readBack a.ignoredSummarySecs := by
    rw [readBack, ← asUInt_asI64 hsecs]
    simp [hf, Fields.field, hget]
  rw [readAudit, Toml.fields, if_pos hknown', ← hf]
  simp only [Option.bind_eq_bind, Option.bind_some, hdatabase', hdays', hmode, hrecord, hsecs']
  unfold readBack
  split_ifs <;> rfl

/-- The section of the export is read as it was written, if the interval is not too large. -/
theorem readQuestDb_questDbWritten (ht : Document t)
    (hknown : Entries.known (saidEntries t) questDbKeys) {q : QuestDbSection}
    (hsecs : q.intervalSecs < 2 ^ 64) :
    readQuestDb (.table (saidEntries (questDbWritten q t))) =
      (readBack q.intervalSecs).map fun _ => q := by
  have htext (o : Option String) : (o.map TomlItem.text).bind TomlItem.said = o.map .string := by
    cases o <;> rfl
  have hget (key : String) : Entries.get (saidEntries (questDbWritten q t)) key =
      if key = "interval_secs" then some (.integer (asI64 q.intervalSecs))
      else if key = "ca_file" then q.caFile.map .string
      else if key = "password" then q.password.map .string
      else if key = "username" then q.username.map .string
      else if key = "token" then q.token.map .string
      else if key = "table" then some (.string q.table)
      else if key = "url" then some (.string q.url)
      else Entries.get (saidEntries t) key := by
    rw [get_saidEntries (document_questDbWritten q ht).ordered, get_saidEntries ht.ordered,
      questDbWritten]
    simp only [Entries.get_set, Entries.get_setOpt]
    split_ifs
    · rfl
    · exact htext _
    · exact htext _
    · exact htext _
    · exact htext _
    · rfl
    · rfl
    · rfl
  have hknown' : Entries.known (saidEntries (questDbWritten q t)) questDbKeys := by
    refine known_of_get hknown fun key hkey => .inr ?_
    simp only [questDbKeys, List.mem_cons, List.not_mem_nil, or_false, not_or] at hkey
    simp [hget, hkey]
  set f : Fields := ⟨saidEntries (questDbWritten q t), true⟩ with hf
  have hoptional {key : String} {o : Option String}
      (hkey : f.entries.get key = o.map .string) : f.optional key Toml.asString = some o := by
    unfold Fields.optional
    rw [hkey]
    cases o with
    | none => rw [Option.map_none, hf, if_pos rfl]
    | some s => rfl
  have hurl : f.required "url" Toml.asString = some q.url := by
    simp [hf, Fields.required, hget, Toml.asString]
  have htable : f.field "table" Toml.asString "opcua_audit" = some q.table := by
    simp [hf, Fields.field, hget, Toml.asString]
  have hsecs' : f.field "interval_secs" (Toml.asUInt 64) 5 = readBack q.intervalSecs := by
    rw [readBack, ← asUInt_asI64 hsecs]
    simp [hf, Fields.field, hget]
  have hca : f.optional "ca_file" Toml.asString = some q.caFile := hoptional (by simp [hf, hget])
  have htoken : f.optional "token" Toml.asString = some q.token := hoptional (by simp [hf, hget])
  have huser : f.optional "username" Toml.asString = some q.username :=
    hoptional (by simp [hf, hget])
  have hpassword : f.optional "password" Toml.asString = some q.password :=
    hoptional (by simp [hf, hget])
  rw [readQuestDb, Toml.fields, if_pos hknown', ← hf]
  simp only [Option.bind_eq_bind, Option.bind_some, hurl, hca, htable, htoken, huser, hpassword,
    hsecs']
  unfold readBack
  split_ifs <;> rfl

/-- The keys of the export's section are known if it was read. -/
theorem known_of_readExport (ht : Document t) {old : ExportSections}
    (h : readExport (.table (saidEntries t)) = some old) :
    Entries.known (saidEntries t) ["questdb", "syslog"] ∧
      Entries.known (saidEntries (t.tableAt "questdb")) questDbKeys := by
  rw [readExport, Toml.fields] at h
  by_cases hknown : Entries.known (saidEntries t) ["questdb", "syslog"]
  swap
  · simp [hknown] at h
  refine ⟨hknown, ?_⟩
  simp only [hknown, if_true, Option.bind_eq_bind, Option.bind_some,
    Option.bind_eq_some_iff] at h
  obtain ⟨questdb, hquestdb, -⟩ := h
  by_cases htable : t.isTable "questdb"
  · obtain ⟨headed, hget⟩ := Entries.exists_of_isTable htable
    by_cases hempty : saidEntries (t.tableAt "questdb") = []
    · rw [hempty]
      rfl
    · have hsaid : Entries.get (saidEntries t) "questdb" =
          some (.table (saidEntries (t.tableAt "questdb"))) := by
        rw [get_saidEntries ht.ordered, hget, Option.bind_some, said_table (.inr hempty)]
      rw [Fields.optional, hsaid] at hquestdb
      obtain ⟨q, hq, -⟩ := Option.map_eq_some_iff.1 hquestdb
      rw [readQuestDb, Toml.fields] at hq
      by_contra hnot
      simp [hnot] at hq
  · rw [Entries.tableAt_of_not_isTable htable]
    rfl

/-- The export section is read as it was written, if the interval is not too large. -/
theorem readExport_exportLeft (ht : Document t) {old : ExportSections}
    (h : readExport (.table (saidEntries t)) = some old) {c : ExportSections}
    (hsecs : ∀ q ∈ c.questdb, q.intervalSecs < 2 ^ 64) :
    readExport (.table (saidEntries (exportLeft c t))) =
      if ∀ q ∈ c.questdb, q.intervalSecs < 2 ^ 63 then some { questdb := c.questdb } else none := by
  obtain ⟨hknown, hknownQuestDb⟩ := known_of_readExport ht h
  have hdoc : Document (exportLeft c t) := (document_exportWritten c ht).remove _
  have hget (key : String) : Entries.get (saidEntries (exportLeft c t)) key =
      if key = "syslog" then none
      else if key = "questdb" then c.questdb.map fun q =>
        .table (saidEntries (questDbWritten q (t.tableAt "questdb")))
      else Entries.get (saidEntries t) key := by
    rw [get_saidEntries hdoc.ordered, get_saidEntries ht.ordered, exportLeft, Entries.get_remove,
      exportWritten]
    by_cases hsyslog : key = "syslog"
    · rw [if_pos hsyslog, if_pos hsyslog]
      rfl
    · rw [if_neg hsyslog, if_neg hsyslog]
      cases c.questdb with
      | none =>
        rw [Entries.get_remove]
        split_ifs <;> rfl
      | some q =>
        have hwritten : saidEntries (questDbWritten q (t.tableAt "questdb")) ≠ [] := by
          intro hnil
          have hurl := get_saidEntries
            (document_questDbWritten q (ht.tableAt "questdb")).ordered "interval_secs"
          rw [hnil, questDbWritten, Entries.get_set, if_pos rfl] at hurl
          cases hurl
        dsimp only
        rw [Entries.get_edit]
        split_ifs
        · rw [Option.bind_some, said_table (.inr hwritten)]
          rfl
        · rfl
  have hknown' : Entries.known (saidEntries (exportLeft c t)) ["questdb", "syslog"] := by
    refine known_of_get hknown fun key hkey => .inr ?_
    simp only [List.mem_cons, List.not_mem_nil, or_false, not_or] at hkey
    simp [hget, hkey]
  have hsyslog : Entries.has (saidEntries (exportLeft c t)) "syslog" = false := by
    rw [Entries.has, hget, if_pos rfl]
    rfl
  rw [readExport, Toml.fields, if_pos hknown']
  simp only [Option.bind_eq_bind, Option.bind_some, hsyslog]
  cases hquestdb : c.questdb with
  | none => simp [Fields.optional, hget, hquestdb]
  | some q =>
    have hread := readQuestDb_questDbWritten (ht.tableAt "questdb") hknownQuestDb (hsecs q hquestdb)
    have hoptional : Fields.optional ⟨saidEntries (exportLeft c t), true⟩ "questdb" readQuestDb =
        ((readBack q.intervalSecs).map fun _ => q).map some := by
      rw [← hread, Fields.optional, hget, if_neg (by decide), if_pos rfl, hquestdb, Option.map_some]
    rw [hoptional, readBack]
    by_cases hfits : q.intervalSecs < 2 ^ 63
    · rw [if_pos hfits, if_pos fun _ hq => Option.some.inj hq ▸ hfits]
      rfl
    · rw [if_neg hfits, if_neg fun hall => hfits (hall q rfl)]
      rfl

/-- The MCP section is read as it was written. -/
theorem readMcp_mcpWritten (ht : Document t) {old : McpConfig}
    (h : readMcp (.table (saidEntries t)) = some old) (c : McpConfig) :
    readMcp (.table (saidEntries (mcpWritten c t))) = some { enabled := c.enabled } := by
  have hget (key : String) : Entries.get (saidEntries (mcpWritten c t)) key =
      if key = "allow" then none
      else if key = "enabled" then some (.boolean c.enabled)
      else Entries.get (saidEntries t) key := by
    rw [get_saidEntries (document_mcpWritten c ht).ordered, get_saidEntries ht.ordered, mcpWritten,
      Entries.get_remove, Entries.get_set]
    split_ifs <;> rfl
  rw [readMcp, Toml.fields] at h
  by_cases hknown : Entries.known (saidEntries t) ["enabled", "allow"]
  swap
  · simp [hknown] at h
  have hknown' : Entries.known (saidEntries (mcpWritten c t)) ["enabled", "allow"] := by
    refine known_of_get hknown fun key hkey => .inr ?_
    simp only [List.mem_cons, List.not_mem_nil, or_false, not_or] at hkey
    simp [hget, hkey]
  rw [readMcp, Toml.fields, if_pos hknown']
  simp [Fields.field, hget, Toml.asBool]

end Sections

/-! ## What is read back of the file -/

/-- The numbers of a configuration are those of its types. -/
structure LoadedConfig.Typed (c : LoadedConfig) : Prop where
  retentionDays : c.audit.retentionDays < 2 ^ 32
  ignoredSummarySecs : c.audit.ignoredSummarySecs < 2 ^ 64
  intervalSecs : ∀ q ∈ c.exports.questdb, q.intervalSecs < 2 ^ 64

/-- The intervals in the settings are not too large to be written. -/
def LoadedConfig.Fits (c : LoadedConfig) : Prop :=
  c.audit.ignoredSummarySecs < 2 ^ 63 ∧ ∀ q ∈ c.exports.questdb, q.intervalSecs < 2 ^ 63

/-- What is left of a section: all of it, if it is edited. -/
def leftOf {α : Type} (doc : Entries TomlItem) (key : String) (section_ default : α) : α :=
  if doc.isTable key then section_ else default

/-- What is left of a configuration, with other settings. -/
def settingsRead (doc : Entries TomlItem) (c : ReadConfig) (config : LoadedConfig) :
    ReadConfig where
  gateway :=
    { leftOf doc "gateway" c.gateway {} with
      certificateHostnames := config.gateway.certificateHostnames }
  web := c.web
  audit := { config.audit with database := (leftOf doc "audit" c.audit {}).database }
  exports := { questdb := config.exports.questdb }
  mcp := { enabled := config.mcp.enabled }
  targets := c.targets

section Read

variable {x : LoadCrates} {doc : Entries TomlItem} {c : ReadConfig} {config : LoadedConfig}

/-- A gateway section that is missing has the defaults. -/
theorem readGateway_nil : readGateway (.table []) = some {} := rfl

/-- An audit section that is missing has the defaults. -/
theorem readAudit_nil : readAudit x (.table []) = some {} := rfl

/-- An export section that is missing has the defaults. -/
theorem readExport_nil : readExport (.table []) = some {} := rfl

/-- An MCP section that is missing has the defaults. -/
theorem readMcp_nil : readMcp (.table []) = some {} := rfl

/-- The gateway section behind new settings: the host names are new, and the rest is what is left.
-/
theorem field_gateway (hdoc : Document doc)
    (h : Fields.field ⟨saidEntries doc, true⟩ "gateway" readGateway {} = some c.gateway) :
    Fields.field ⟨saidEntries (settingsWritten config doc), true⟩ "gateway" readGateway {} =
      some { leftOf doc "gateway" c.gateway {} with
        certificateHostnames := config.gateway.certificateHostnames } := by
  have hget : (settingsWritten config doc).get "gateway" = some (.table
      (doc.headedAt "gateway" true) (gatewayWritten config.gateway (doc.tableAt "gateway"))) := by
    rw [get_settingsWritten, if_neg (by decide), get_sectionsWritten, if_neg (by decide),
      if_neg (by decide), if_neg (by decide), if_pos rfl]
  have hread := Fields.read_tableAt hdoc readGateway_nil h
  rw [Fields.field_table (document_settingsWritten config hdoc) hget readGateway_nil]
  exact readGateway_gatewayWritten (hdoc.tableAt _) hread config.gateway

/-- The audit section behind new settings: it is read back, with the database that is left. -/
theorem field_audit (hvariant : ∀ name, x.variant (.string name) = some name)
    (hdoc : Document doc) (htyped : config.Typed)
    (h : Fields.field ⟨saidEntries doc, true⟩ "audit" (readAudit x) {} = some c.audit) :
    Fields.field ⟨saidEntries (settingsWritten config doc), true⟩ "audit" (readAudit x) {} =
      (readBack config.audit.ignoredSummarySecs).map fun _ =>
        { config.audit with database := (leftOf doc "audit" c.audit {}).database } := by
  have hget : (settingsWritten config doc).get "audit" = some (.table
      (doc.headedAt "audit" true) (auditWritten config.audit (doc.tableAt "audit"))) := by
    rw [get_settingsWritten, if_neg (by decide), get_sectionsWritten, if_neg (by decide),
      if_neg (by decide), if_pos rfl]
  have hread := Fields.read_tableAt hdoc readAudit_nil h
  rw [Fields.field_table (document_settingsWritten config hdoc) hget readAudit_nil]
  exact readAudit_auditWritten hvariant (hdoc.tableAt _) hread htyped.retentionDays
    htyped.ignoredSummarySecs

/-- The export section behind new settings, which is not read if its interval does not fit. -/
theorem field_export (hdoc : Document doc) (htyped : config.Typed)
    (h : Fields.field ⟨saidEntries doc, true⟩ "export" readExport {} = some c.exports) :
    Fields.field ⟨saidEntries (settingsWritten config doc), true⟩ "export" readExport {} =
      if ∀ q ∈ config.exports.questdb, q.intervalSecs < 2 ^ 63 then
        some { questdb := config.exports.questdb }
      else none := by
  have hdoc' := document_settingsWritten config hdoc
  have hread := Fields.read_tableAt hdoc readExport_nil h
  have hleft := readExport_exportLeft (hdoc.tableAt _) hread htyped.intervalSecs
  rw [← hleft]
  by_cases hempty : exportLeft config.exports (doc.tableAt "export") = []
  · have hnone : Entries.get (saidEntries (settingsWritten config doc)) "export" = none := by
      rw [get_saidEntries hdoc'.ordered, get_settingsWritten, if_pos rfl, if_pos hempty,
        Option.bind_none]
    rw [Fields.field_none hnone, hempty]
    rfl
  · have hget : (settingsWritten config doc).get "export" = some (.table
        (doc.headedAt "export" false) (exportLeft config.exports (doc.tableAt "export"))) := by
      rw [get_settingsWritten, if_pos rfl, if_neg hempty]
    rw [Fields.field_table hdoc' hget readExport_nil]

/-- The MCP section behind new settings. -/
theorem field_mcp (hdoc : Document doc)
    (h : Fields.field ⟨saidEntries doc, true⟩ "mcp" readMcp {} = some c.mcp) :
    Fields.field ⟨saidEntries (settingsWritten config doc), true⟩ "mcp" readMcp {} =
      some { enabled := config.mcp.enabled } := by
  have hdoc' := document_settingsWritten config hdoc
  have hget : (settingsWritten config doc).get "mcp" =
      if config.mcp.enabled ∨ doc.has "mcp" then
        some (.table (doc.headedAt "mcp" true) (mcpWritten config.mcp (doc.tableAt "mcp")))
      else none := by
    rw [get_settingsWritten, if_neg (by decide), get_sectionsWritten, if_pos rfl]
  by_cases hmcp : config.mcp.enabled ∨ doc.has "mcp"
  · rw [if_pos hmcp] at hget
    rw [Fields.field_table hdoc' hget readMcp_nil]
    exact readMcp_mcpWritten (hdoc.tableAt _) (Fields.read_tableAt hdoc readMcp_nil h) config.mcp
  · rw [if_neg hmcp] at hget
    have hnone : Entries.get (saidEntries (settingsWritten config doc)) "mcp" = none := by
      rw [get_saidEntries hdoc'.ordered, hget, Option.bind_none]
    rw [Fields.field_none hnone, eq_false_of_ne_true (not_or.1 hmcp).1]

/-- A section without settings is as it was. -/
theorem get_said_settingsWritten (hdoc : Document doc) {key : String}
    (hkey : key ∉ ["gateway", "audit", "export", "mcp"]) :
    Entries.get (saidEntries (settingsWritten config doc)) key =
      Entries.get (saidEntries doc) key := by
  simp only [List.mem_cons, List.not_mem_nil, or_false, not_or] at hkey
  obtain ⟨hgateway, haudit, hexport, hmcp⟩ := hkey
  rw [get_saidEntries (document_settingsWritten config hdoc).ordered, get_saidEntries hdoc.ordered,
    get_settingsWritten, if_neg hexport, get_sectionsWritten, if_neg hmcp, if_neg hexport,
    if_neg haudit, if_neg hgateway]

/-- **What is read of the file** that is written: the settings, if their intervals are read, and the
rest of every section that was edited and not replaced. -/
theorem readConfig_settingsWritten (hvariant : ∀ name, x.variant (.string name) = some name)
    (hdoc : Document doc) (htyped : config.Typed)
    (hread : readConfig x (saidEntries doc) = some c) {c' : ReadConfig} :
    readConfig x (saidEntries (settingsWritten config doc)) = some c' ↔
      config.Fits ∧ settingsRead doc c config = c' := by
  obtain ⟨hknown, hgateway, hweb, haudit, hexport, hmcp, htargets⟩ := readConfig_eq_some.1 hread
  have hknown' : Entries.known (saidEntries (settingsWritten config doc)) rootKeys := by
    refine known_of_get hknown fun key hkey => .inr (get_said_settingsWritten hdoc ?_)
    simp only [rootKeys, List.mem_cons, List.not_mem_nil, or_false, not_or] at hkey
    simp [hkey]
  have hother {α : Type} {key : String} (hkey : key ∉ ["gateway", "audit", "export", "mcp"])
      (read : Toml → Option α) (default : α) :
      Fields.field ⟨saidEntries (settingsWritten config doc), true⟩ key read default =
        Fields.field ⟨saidEntries doc, true⟩ key read default :=
    Fields.field_congr (get_said_settingsWritten hdoc hkey) read default
  rw [readConfig_eq_some, field_gateway hdoc hgateway, field_audit hvariant hdoc htyped haudit,
    field_export hdoc htyped hexport, field_mcp hdoc hmcp, hother (by decide), hweb,
    hother (by decide), htargets, readBack]
  obtain ⟨gateway, web, audit, exports, mcp, targets⟩ := c'
  unfold LoadedConfig.Fits
  by_cases hsecs : config.audit.ignoredSummarySecs < 2 ^ 63
  · by_cases hinterval : ∀ q ∈ config.exports.questdb, q.intervalSecs < 2 ^ 63
    · rw [if_pos hsecs, if_pos hinterval, and_iff_right (And.intro hsecs hinterval)]
      simp only [hknown', Option.map_some, Option.some.injEq, true_and, settingsRead,
        ReadConfig.mk.injEq]
    · rw [if_neg hinterval]
      refine iff_of_false ?_ fun h => hinterval h.1.2
      rintro ⟨-, -, -, -, hnone, -⟩
      cases hnone
  · rw [if_neg hsecs]
    refine iff_of_false ?_ fun h => hsecs h.1.1
    rintro ⟨-, -, -, hnone, -⟩
    cases hnone

end Read

/-! ## A change of the settings -/

/-- The settings that can be changed. The database in the audit section is none of them. -/
structure SettingsChange where
  certificateHostnames : List String
  audit : AuditConfig
  questdb : Option QuestDbSection
  mcpEnabled : Bool

/-- The configuration with new settings. -/
def LoadedConfig.withSettings (c : LoadedConfig) (s : SettingsChange) : LoadedConfig :=
  { c with
    gateway := { c.gateway with certificateHostnames := s.certificateHostnames }
    audit := c.audit.change s.audit
    exports := { c.exports with questdb := s.questdb }
    mcp := { c.mcp with enabled := s.mcpEnabled } }

/-- Without what is no longer supported, which is dropped when the file is saved. -/
def LoadedConfig.saved (c : LoadedConfig) : LoadedConfig :=
  { c with
    exports := { c.exports with syslog := false }
    mcp := { c.mcp with allow := [] } }

/-- The file is written, and what is loaded from it are the new settings, with every other value as
it was; the sections without settings are as they were. -/
def SettingsRoundTrip (x : LoadCrates) (base : String) (var : Option String) (text : String)
    (cfg : LoadedConfig) (s : SettingsChange) : Prop :=
  ∃ written, writeSettings x text (cfg.withSettings s) = some written ∧
    load x base var written = .ok (cfg.withSettings s).saved ∧
    ∃ before after, x.toml text = some before ∧ x.toml written = some after ∧
      ∀ key ∉ ["gateway", "audit", "export", "mcp"], after.get key = before.get key

/-- The section is edited, or there was nothing in it but host names. -/
def GatewayKept (doc : Entries TomlItem) (base : String) (c : GatewayConfig) : Prop :=
  doc.isTable "gateway" ∨
    c = { ({} : GatewayConfig).resolvePaths base with
          certificateHostnames := c.certificateHostnames }

/-- The section is edited, or there was no database in it. -/
def DatabaseKept (doc : Entries TomlItem) (c : AuditConfig) : Prop :=
  doc.isTable "audit" ∨ c.database = none

/-- The CA file is no other for a relative path being resolved again. -/
def CaStays (base : String) (questdb : Option QuestDbSection) : Prop :=
  ∀ q ∈ questdb, ∀ path ∈ q.caFile, joinPath base path = path

section Change

variable {x : LoadCrates} {base : String} {var : Option String} {text : String}
  {doc : Entries TomlItem} {s : SettingsChange}

/-- The gateway section is as before exactly if nothing of it was lost. -/
theorem gateway_leftOf (c : GatewayConfig) (names : List String) :
    ({ leftOf doc "gateway" c {} with certificateHostnames := names } : GatewayConfig).resolvePaths
        base = { c.resolvePaths base with certificateHostnames := names } ↔
      GatewayKept doc base (c.resolvePaths base) := by
  unfold GatewayKept leftOf
  by_cases htable : doc.isTable "gateway"
  · rw [if_pos htable]
    exact iff_of_true rfl (.inl htable)
  · obtain ⟨name, uri, pki, data, hostnames⟩ := c
    rw [if_neg htable]
    simp [htable, GatewayConfig.resolvePaths, eq_comm]

/-- The database is as before exactly if it was not lost. -/
theorem database_leftOf (c : AuditConfig) :
    (leftOf doc "audit" c {}).database.map (joinPath base) = c.database.map (joinPath base) ↔
      DatabaseKept doc (c.resolvePaths base) := by
  unfold DatabaseKept leftOf
  by_cases htable : doc.isTable "audit"
  · rw [if_pos htable]
    exact iff_of_true rfl (.inl htable)
  · rw [if_neg htable, AuditConfig.resolvePaths]
    simp [htable, eq_comm]

/-- The CA file is as before exactly if resolving its path again changes nothing. -/
theorem resolvePaths_eq_iff (questdb : Option QuestDbSection) :
    questdb.map (·.resolvePaths base) = questdb ↔ CaStays base questdb := by
  cases questdb with
  | none => exact iff_of_true rfl fun _ => nofun
  | some q =>
    obtain ⟨⟨url, table, caFile⟩, token, username, password, intervalSecs⟩ := q
    cases caFile with
    | none => exact iff_of_true rfl fun _ hq => Option.some.inj hq ▸ nofun
    | some path => simp [CaStays, QuestDbSection.resolvePaths]

/-- What is left of a configuration is that configuration with the other settings, if nothing was
replaced. -/
theorem finish_settingsRead {c : ReadConfig} {cfg : LoadedConfig}
    (hfinish : (c.config x.toConfigCrates base).finish x.toConfigCrates var = .ok cfg)
    (hvalid : (cfg.withSettings s).toConfig.validate x.toConfigCrates = .ok ()) :
    ((settingsRead doc c (cfg.withSettings s)).config x.toConfigCrates base).finish
        x.toConfigCrates var = .ok (cfg.withSettings s).saved ↔
      GatewayKept doc base cfg.gateway ∧ DatabaseKept doc cfg.audit ∧ CaStays base s.questdb := by
  obtain ⟨web, hweb, rfl, -⟩ := finish_eq_ok.1 hfinish
  have hgateway := @gateway_leftOf base doc c.gateway s.certificateHostnames
  have hdatabase := @database_leftOf base doc c.audit
  have hca := @resolvePaths_eq_iff base s.questdb
  rw [finish_eq_ok]
  constructor
  · rintro ⟨web', -, heq, -⟩
    refine ⟨hgateway.1 ?_, hdatabase.1 ?_, hca.1 ?_⟩
    · exact (congrArg (fun c : LoadedConfig => c.gateway) heq).symm
    · exact (congrArg (fun c : LoadedConfig => c.audit.database) heq).symm
    · exact (congrArg (fun c : LoadedConfig => c.exports.questdb) heq).symm
  · rintro ⟨hkept, hdatabaseKept, hstays⟩
    refine ⟨web, hweb, ?_, hvalid⟩
    simp only [LoadedConfig.saved, LoadedConfig.withSettings, settingsRead, ReadConfig.config,
      AuditConfig.change, AuditConfig.resolvePaths, ExportSections.resolvePaths]
    rw [hgateway.2 hkept, hdatabase.2 hdatabaseKept, hca.2 hstays]

/-- **The settings round-trip** if and only if the file can be edited, the sections with other keys
are edited in place, and what is written is read back as it is. -/
theorem writeSettings_loads {cfg : LoadedConfig}
    (hx : x.Lawful text (settingsWritten (cfg.withSettings s)))
    (hload : load x base var text = .ok cfg)
    (hvalid : (cfg.withSettings s).toConfig.validate x.toConfigCrates = .ok ())
    (htyped : (cfg.withSettings s).Typed) :
    SettingsRoundTrip x base var text cfg s ↔
      ∃ doc, x.document text = some doc ∧ (cfg.withSettings s).Fits ∧
        GatewayKept doc base cfg.gateway ∧ DatabaseKept doc cfg.audit ∧ CaStays base s.questdb := by
  obtain ⟨es, c, htoml, hread, hfinish⟩ := load_eq_ok.1 hload
  -- the file after the edit of a document
  have hwritten {doc : Entries TomlItem} (hdoc : x.document text = some doc) :
      x.toml (x.print (settingsWritten (cfg.withSettings s) doc)) =
        some (saidEntries (settingsWritten (cfg.withSettings s) doc)) :=
    hx.print hdoc (document_settingsWritten _ (hx.document hdoc))
  have hreadBack {doc : Entries TomlItem} (hdoc : x.document text = some doc) {c' : ReadConfig} :
      readConfig x (saidEntries (settingsWritten (cfg.withSettings s) doc)) = some c' ↔
        (cfg.withSettings s).Fits ∧ settingsRead doc c (cfg.withSettings s) = c' :=
    readConfig_settingsWritten hx.variant (hx.document hdoc) htyped
      (Option.some.inj ((hx.toml hdoc).symm.trans htoml) ▸ hread)
  constructor
  · rintro ⟨written, hwrite, hloads, -⟩
    obtain ⟨doc, hdoc, rfl⟩ := Option.map_eq_some_iff.1 hwrite
    obtain ⟨es', c', htoml', hread', hfinish'⟩ := load_eq_ok.1 hloads
    obtain rfl := Option.some.inj ((hwritten hdoc).symm.trans htoml')
    obtain ⟨hfits, rfl⟩ := (hreadBack hdoc).1 hread'
    exact ⟨doc, hdoc, hfits, (finish_settingsRead hfinish hvalid).1 hfinish'⟩
  · rintro ⟨doc, hdoc, hfits, hkept⟩
    refine ⟨_, Option.map_eq_some_iff.2 ⟨doc, hdoc, rfl⟩, ?_, _, _, hx.toml hdoc, hwritten hdoc,
      fun key hkey => get_said_settingsWritten (hx.document hdoc) hkey⟩
    exact load_eq_ok.2 ⟨_, _, hwritten hdoc, (hreadBack hdoc).2 ⟨hfits, rfl⟩,
      (finish_settingsRead hfinish hvalid).2 hkept⟩

end Change

/-! ### Two files with a database -/

/-- Where the trail is. -/
def trailPath : String := "/var/lib/audit.db"

/-- A configuration with a trail. -/
def withTrail : LoadedConfig where
  audit := { database := trailPath }

/-- The database has a dotted key, and the export a header. -/
def dottedFile : String :=
  "audit.database = \"/var/lib/audit.db\"\n\n[export.questdb]\nurl = \"http://questdb:9000\"\n"

/-- A document with dotted keys. -/
def dottedDocument : Entries TomlItem :=
  [("audit", .table false [("database", .text trailPath)]),
    ("export", .table false [("questdb", .table true [("url", .text "http://questdb:9000")])])]

/-- The document with dotted keys can be written. -/
theorem document_dottedDocument : Document dottedDocument := by
  refine ⟨List.pairwise_pair.2 (by decide), List.forall_mem_cons.2 ⟨?_, ?_⟩⟩
  · exact .table _ _ (List.pairwise_singleton ..) (List.forall_mem_singleton.2 (.string _))
  · refine List.forall_mem_singleton.2 (.table _ _ (List.pairwise_singleton ..)
      (List.forall_mem_singleton.2 ?_))
    exact .table _ _ (List.pairwise_singleton ..) (List.forall_mem_singleton.2 (.string _))

/-- A configuration with an export. -/
def exported : LoadedConfig :=
  { withTrail with
    exports := { questdb := some { url := "http://questdb:9000", table := "opcua_audit" } } }

/-- The export is turned off, and the MCP endpoint on. -/
def mcpOnly : SettingsChange where
  certificateHostnames := []
  audit := { retentionDays := 30, failMode := .failClosed }
  questdb := none
  mcpEnabled := true

/-- The file behind the change. -/
def mcpFile : String :=
  "audit.database = \"/var/lib/audit.db\"\naudit.retention_days = 30\n" ++
    "audit.fail_mode = \"closed\"\naudit.record_old_value = true\n" ++
    "audit.ignored_summary_secs = 3600\n\n[gateway]\n\n[mcp]\nenabled = true\n"

/-- The settings of the example have their types. -/
theorem typed_mcpOnly : (exported.withSettings mcpOnly).Typed :=
  ⟨by decide, by decide, fun _ hq => absurd hq (Option.not_mem_none _)⟩

/-- The settings are changed in a file with dotted keys. -/
theorem writeSettings_loads_dottedFile :
    SettingsRoundTrip
      (fileCrates dottedFile dottedDocument mcpFile
        (settingsWritten (exported.withSettings mcpOnly) dottedDocument)) "" none
      dottedFile exported mcpOnly := by
  refine (writeSettings_loads (fileCrates_lawful (f := settingsWritten _) (by decide)
    document_dottedDocument) rfl rfl typed_mcpOnly).2
      ⟨dottedDocument, rfl, ⟨by decide, fun _ hq => absurd hq (Option.not_mem_none _)⟩, .inr rfl,
        .inl rfl, nofun⟩

/-- The same section is written inline. -/
def inlineFile : String := "audit = \x7b database = \"/var/lib/audit.db\" \x7d\n"

/-- A document with an inline table. -/
def inlineDocument : Entries TomlItem :=
  [("audit", .value (.table [("database", .string trailPath)]))]

/-- The document with an inline table can be written. -/
theorem document_inlineDocument : Document inlineDocument := by
  refine ⟨List.pairwise_singleton .., List.forall_mem_singleton.2 (.value _ ?_)⟩
  exact .table _ (List.pairwise_singleton ..) (List.forall_mem_singleton.2 (.string _))

/-- One host name is added. -/
def oneHostname : SettingsChange where
  certificateHostnames := ["gateway.local"]
  audit := {}
  questdb := none
  mcpEnabled := false

/-- The file behind the change: the database is no longer in it. -/
def hostnameFile : String :=
  "[audit]\nretention_days = 365\nfail_mode = \"open\"\nrecord_old_value = true\n" ++
    "ignored_summary_secs = 3600\n\n[gateway]\ncertificate_hostnames = [\"gateway.local\"]\n"

/-- A host name is added, and the database is no longer in the file. -/
theorem not_loads_inlineFile :
    ∃ x : LoadCrates, x.Lawful inlineFile (settingsWritten (withTrail.withSettings oneHostname)) ∧
      load x "" none inlineFile = .ok withTrail ∧
      (withTrail.withSettings oneHostname).toConfig.validate x.toConfigCrates = .ok () ∧
      (withTrail.withSettings oneHostname).Typed ∧
      ¬SettingsRoundTrip x "" none inlineFile withTrail oneHostname := by
  refine ⟨fileCrates inlineFile inlineDocument hostnameFile
      (settingsWritten (withTrail.withSettings oneHostname) inlineDocument),
    fileCrates_lawful (f := settingsWritten _) (by decide) document_inlineDocument, rfl, rfl,
    ⟨by decide, by decide, nofun⟩, ?_⟩
  rintro ⟨written, hwrite, hload, -⟩
  obtain ⟨doc, -, rfl⟩ := Option.map_eq_some_iff.1 hwrite
  have hlost : ((load (fileCrates inlineFile inlineDocument hostnameFile
      (settingsWritten (withTrail.withSettings oneHostname) inlineDocument)) "" none
        hostnameFile).toOption.bind fun c => c.audit.database) = none := by decide +kernel
  rw [show load (fileCrates _ _ _ _) "" none hostnameFile = _ from hload] at hlost
  cases hlost

end AuditGateway
