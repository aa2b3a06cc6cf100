import AuditGateway.Config.Gateway
import AuditGateway.Config.Groups
import AuditGateway.Lib.Toml

set_option relaxedAutoImplicit false
set_option autoImplicit false

/-!
# Loading the configuration

The configuration is read from a TOML file, section by section and field by field. Its relative
paths are those of the directory of the file, its targets are brought into the new form, the
environment can turn HTTPS on or off, and what comes out of it is validated.

## Main definitions

* `LoadedConfig` — the configuration with what loading had to correct.
* `readConfig` — what is read from the file, as it is written there.
* `LoadedConfig.resolvePaths`, `TargetSection.migrate`, `LoadedConfig.applyEnv` — what is made of
  it.
* `load` — the configuration of a file.

## Main results

* `pairwise_apart_of_validate` — valid groups are apart.
* `migrate_of_valid` — valid targets in the new form stay as they are.
* `load_eq_ok` — what was read when a configuration is loaded.
-/

namespace AuditGateway

/-- The MCP endpoint. -/
structure McpConfig where
  enabled : Bool := false
  /-- No longer used. Still read, dropped when saved. -/
  allow : List String := []
  deriving DecidableEq

/-- A configuration with what was said to no purpose in its file. -/
structure LoadedConfig extends Config where
  mcp : McpConfig := {}
  /-- What loading had to correct. -/
  loadFixes : List String := []

/-- The functions of other crates that read and write the file. -/
structure LoadCrates extends ConfigCrates where
  /-- What is read of a text. -/
  toml : String → Option (Entries Toml)
  /-- The document that is edited. -/
  document : String → Option (Entries TomlItem)
  print : Entries TomlItem → String
  socketAddr : String → Option SocketAddr
  ipAddr : String → Option IpAddr
  /-- The name of a variant without fields. -/
  variant : Toml → Option String

/-- What is documented of them, for a text and an edit of it: both crates read the same, what is
printed is read again, and a variant is read from its name. -/
structure LoadCrates.Lawful (x : LoadCrates) (text : String)
    (edit : Entries TomlItem → Entries TomlItem) : Prop where
  document {doc : Entries TomlItem} (h : x.document text = some doc) : Document doc
  toml {doc : Entries TomlItem} (h : x.document text = some doc) :
    x.toml text = some (saidEntries doc)
  print {doc : Entries TomlItem} (h : x.document text = some doc) (hedit : Document (edit doc)) :
    x.toml (x.print (edit doc)) = some (saidEntries (edit doc))
  variant (name : String) : x.variant (.string name) = some name

/-! ## Reading -/

namespace MinSecurity

/-- The name of a minimum security in the file. -/
def name : MinSecurity → String
  | .none => "none"
  | .sign => "sign"
  | .signAndEncrypt => "sign_and_encrypt"

/-- The variant called `name`. -/
def ofName (name : String) : Option MinSecurity :=
  if name = "none" then some .none
  else if name = "sign" then some .sign
  else if name = "sign_and_encrypt" then some .signAndEncrypt
  else none

/-- Every name is read back. -/
theorem ofName_name (s : MinSecurity) : ofName s.name = some s := by
  cases s <;> decide

end MinSecurity

/-- A value that may be left out. -/
def Toml.asSome {α : Type} (read : Toml → Option α) (v : Toml) : Option (Option α) :=
  (read v).map some

section Read

variable (x : LoadCrates)

/-- The keys of the gateway section. -/
def gatewayKeys : List String :=
  ["application_name", "application_uri", "pki_dir", "data_dir", "certificate_hostnames"]

/-- The gateway section, with its defaults. -/
def readGateway (v : Toml) : Option GatewayConfig := do
  let f ← v.fields gatewayKeys
  let default : GatewayConfig := {}
  let applicationName ← f.field "application_name" Toml.asString default.applicationName
  let applicationUri ← f.field "application_uri" (Toml.asSome Toml.asString) default.applicationUri
  let pkiDir ← f.field "pki_dir" Toml.asString default.pkiDir
  let dataDir ← f.field "data_dir" Toml.asString default.dataDir
  let certificateHostnames ←
    f.field "certificate_hostnames" Toml.asStrings default.certificateHostnames
  some { applicationName, applicationUri, pkiDir, dataDir, certificateHostnames }

/-- The web section, with its defaults. -/
def readWeb (v : Toml) : Option WebConfig := do
  let f ← v.fields
    ["listen", "tls", "tls_certificate", "tls_private_key", "allowed_hosts", "trusted_proxies"]
  let default : WebConfig := {}
  let listen ← f.field "listen" (fun v => v.asString.bind x.socketAddr) default.listen
  let tls ← f.field "tls" Toml.asBool default.tls
  let tlsCertificate ← f.field "tls_certificate" (Toml.asSome Toml.asString) default.tlsCertificate
  let tlsPrivateKey ← f.field "tls_private_key" (Toml.asSome Toml.asString) default.tlsPrivateKey
  let allowedHosts ← f.field "allowed_hosts" Toml.asStrings default.allowedHosts
  let trustedProxies ←
    f.field "trusted_proxies" (Toml.asList fun v => v.asString.bind x.ipAddr) default.trustedProxies
  some { listen, tls, tlsCertificate, tlsPrivateKey, allowedHosts, trustedProxies }

/-- The audit section, with its defaults. -/
def readAudit (v : Toml) : Option AuditConfig := do
  let f ← v.fields AuditConfig.keys
  let default : AuditConfig := {}
  let database ← f.field "database" (Toml.asSome Toml.asString) default.database
  let retentionDays ← f.field "retention_days" (Toml.asUInt 32) default.retentionDays
  let failMode ← f.field "fail_mode" (fun v => (x.variant v).bind FailMode.ofName) default.failMode
  let recordOldValue ← f.field "record_old_value" Toml.asBool default.recordOldValue
  let ignoredSummarySecs ←
    f.field "ignored_summary_secs" (Toml.asUInt 64) default.ignoredSummarySecs
  some { database, retentionDays, failMode, recordOldValue, ignoredSummarySecs }

/-- The keys of the QuestDB section. -/
def questDbKeys : List String :=
  ["url", "ca_file", "table", "token", "username", "password", "interval_secs"]

/-- The QuestDB section. Only its URL must be there. -/
def readQuestDb (v : Toml) : Option QuestDbSection := do
  let f ← v.fields questDbKeys
  let url ← f.required "url" Toml.asString
  let caFile ← f.optional "ca_file" Toml.asString
  let table ← f.field "table" Toml.asString "opcua_audit"
  let token ← f.optional "token" Toml.asString
  let username ← f.optional "username" Toml.asString
  let password ← f.optional "password" Toml.asString
  let intervalSecs ← f.field "interval_secs" (Toml.asUInt 64) 5
  some { url, caFile, table, token, username, password, intervalSecs }

/-- The section for syslog can be anything. -/
def readExport (v : Toml) : Option ExportSections := do
  let f ← v.fields ["questdb", "syslog"]
  let questdb ← f.optional "questdb" readQuestDb
  some { questdb, syslog := f.entries.has "syslog" }

/-- The MCP section, with its defaults. -/
def readMcp (v : Toml) : Option McpConfig := do
  let f ← v.fields ["enabled", "allow"]
  let default : McpConfig := {}
  let enabled ← f.field "enabled" Toml.asBool default.enabled
  let allow ← f.field "allow" Toml.asStrings default.allow
  some { enabled, allow }

/-- A summarise group. -/
def readGroup (v : Toml) : Option SummariseGroup := do
  let f ← v.fields ["name", "client", "nodes", "names"]
  let name ← f.field "name" (Toml.asSome Toml.asString) none
  let client ← f.field "client" (Toml.asSome Toml.asString) none
  let nodes ← f.field "nodes" Toml.asStrings []
  let names ← f.field "names" Toml.asTexts []
  some { name, client, nodes, names }

/-- A rule of an older version. -/
def readRule (v : Toml) : Option IgnoreRule := do
  let f ← v.fields ["node_id", "client", "name"]
  let nodeId ← f.required "node_id" Toml.asString
  let client ← f.field "client" (Toml.asSome Toml.asString) none
  let name ← f.field "name" (Toml.asSome Toml.asString) none
  some { nodeId, client, name }

/-- The keys of a target. -/
def targetKeys : List String :=
  ["name", "listen", "endpoint_url", "discovery_interval_secs", "min_security", "max_connections",
    "max_connections_per_address", "summarise", "ignore"]

/-- A target. Name, address and endpoint must be there. -/
def readTarget (v : Toml) : Option TargetSection := do
  let f ← v.fields targetKeys
  let name ← f.required "name" Toml.asString
  let listen ← f.required "listen" fun v => v.asString.bind x.socketAddr
  let endpointUrl ← f.required "endpoint_url" Toml.asString
  let discoveryIntervalSecs ← f.field "discovery_interval_secs" (Toml.asUInt 64) 60
  let minSecurity ← f.field "min_security" (fun v => (x.variant v).bind MinSecurity.ofName) .none
  let maxConnections ← f.field "max_connections" (Toml.asUInt 64) 50
  let maxConnectionsPerAddress ← f.field "max_connections_per_address" (Toml.asUInt 64) 10
  let summarise ← f.field "summarise" (Toml.asList readGroup) []
  let ignore ← f.field "ignore" (Toml.asList readRule) []
  some { name, listen, endpointUrl, discoveryIntervalSecs, minSecurity, maxConnections,
         maxConnectionsPerAddress, summarise, ignore }

/-- The configuration as it is in the file. -/
structure ReadConfig where
  gateway : GatewayConfig
  web : WebConfig
  audit : AuditConfig
  exports : ExportSections
  mcp : McpConfig
  targets : List TargetSection

/-- The keys of the file. -/
def rootKeys : List String := ["gateway", "web", "audit", "export", "mcp", "targets"]

/-- The whole file. -/
def readConfig (es : Entries Toml) : Option ReadConfig := do
  let f ← (Toml.table es).fields rootKeys
  let gateway ← f.field "gateway" readGateway {}
  let web ← f.field "web" (readWeb x) {}
  let audit ← f.field "audit" (readAudit x) {}
  let exports ← f.field "export" readExport {}
  let mcp ← f.field "mcp" readMcp {}
  let targets ← f.field "targets" (Toml.asList (readTarget x)) []
  some { gateway, web, audit, exports, mcp, targets }

end Read

/-! ## What is made of it -/

/-- A path in a directory; an absolute path stays as it is. -/
def joinPath (base path : String) : String :=
  if path.toList.head? = some '/' then path
  else if base = "" ∨ base.toList.getLast? = some '/' then base ++ path
  else base ++ "/" ++ path

/-- Relative paths are those of the directory of the file. -/
def GatewayConfig.resolvePaths (base : String) (c : GatewayConfig) : GatewayConfig :=
  { c with pkiDir := joinPath base c.pkiDir, dataDir := joinPath base c.dataDir }

/-- Relative files of the web section are next to the configuration. -/
def WebConfig.resolvePaths (base : String) (c : WebConfig) : WebConfig :=
  { c with
    tlsCertificate := c.tlsCertificate.map (joinPath base)
    tlsPrivateKey := c.tlsPrivateKey.map (joinPath base) }

/-- A relative database is next to the configuration. -/
def AuditConfig.resolvePaths (base : String) (c : AuditConfig) : AuditConfig :=
  { c with database := c.database.map (joinPath base) }

/-- A relative CA file is next to the configuration. -/
def QuestDbSection.resolvePaths (base : String) (q : QuestDbSection) : QuestDbSection :=
  { q with caFile := q.caFile.map (joinPath base) }

/-- Relative files of the export are next to the configuration. -/
def ExportSections.resolvePaths (base : String) (c : ExportSections) : ExportSections :=
  { c with questdb := c.questdb.map (·.resolvePaths base) }

/-- A target in the new form, and what had to be corrected. -/
def TargetSection.migrate (x : ConfigCrates) (t : TargetSection) : TargetSection × List String :=
  t.migrateIgnore.dropSummariseOverlaps x

/-- Overrides whether the web UI is served over HTTPS. -/
def webTlsEnv : String := "OPCUA_GATEWAY_WEB_TLS"

/-- Why a file is not loaded. -/
inductive LoadError
  | parsing
  | env (value : String)
  | invalid (e : ConfigError)
  deriving DecidableEq

/-- The text of an error, where the library does not say it. -/
def LoadError.message (x : ConfigCrates) : LoadError → Option String
  | .parsing => none
  | .env value => webTlsEnv ++ ": '" ++ value ++ "' is not true or false"
  | .invalid e => e.message x

/-- The setting of the environment. Empty counts as not set. -/
def WebConfig.applyEnv (var : Option String) (c : WebConfig) : Except LoadError WebConfig :=
  match var.filter (trim · ≠ "") with
  | none => .ok c
  | some v =>
    let word := asciiLower (trim v)
    if word ∈ ["1", "true", "yes", "on"] then .ok { c with tls := true }
    else if word ∈ ["0", "false", "no", "off"] then .ok { c with tls := false }
    else .error (.env word)

/-- What is read, with the paths of a directory and the targets in the new form. -/
def ReadConfig.config (x : ConfigCrates) (base : String) (c : ReadConfig) : LoadedConfig where
  gateway := c.gateway.resolvePaths base
  web := c.web.resolvePaths base
  audit := c.audit.resolvePaths base
  exports := c.exports.resolvePaths base
  mcp := c.mcp
  targets := c.targets.map fun t => (t.migrate x).1.toTargetConfig
  loadFixes := c.targets.flatMap fun t => (t.migrate x).2

/-- The environment has the last word, and what there is then is validated. -/
def LoadedConfig.finish (x : ConfigCrates) (var : Option String) (c : LoadedConfig) :
    Except LoadError LoadedConfig :=
  match c.web.applyEnv var with
  | .error e => .error e
  | .ok web =>
    let c := { c with web := web }
    match c.toConfig.validate x with
    | .error e => .error (.invalid e)
    | .ok () => .ok c

/-- The configuration of a file with this text in this directory. -/
def load (x : LoadCrates) (base : String) (var : Option String) (text : String) :
    Except LoadError LoadedConfig :=
  match (x.toml text).bind (readConfig x) with
  | none => .error .parsing
  | some c => (c.config x.toConfigCrates base).finish x.toConfigCrates var

/-! ## What was read -/

section Load

variable {x : LoadCrates} {base : String} {var : Option String}

/-- A file is read section by section. -/
theorem readConfig_eq_some {es : Entries Toml} {c : ReadConfig} :
    readConfig x es = some c ↔
      Entries.known es rootKeys ∧
        Fields.field ⟨es, true⟩ "gateway" readGateway {} = some c.gateway ∧
        Fields.field ⟨es, true⟩ "web" (readWeb x) {} = some c.web ∧
        Fields.field ⟨es, true⟩ "audit" (readAudit x) {} = some c.audit ∧
        Fields.field ⟨es, true⟩ "export" readExport {} = some c.exports ∧
        Fields.field ⟨es, true⟩ "mcp" readMcp {} = some c.mcp ∧
        Fields.field ⟨es, true⟩ "targets" (Toml.asList (readTarget x)) [] = some c.targets := by
  obtain ⟨gateway, web, audit, exports, mcp, targets⟩ := c
  rw [readConfig, Toml.fields]
  by_cases hknown : Entries.known es rootKeys
  · simp only [hknown, if_true, Option.bind_eq_bind, Option.bind_eq_some_iff, Option.some.injEq,
      ReadConfig.mk.injEq, true_and]
    constructor
    · rintro ⟨_, rfl, g, hg, w, hw, a, ha, e, he, m, hm, t, ht, rfl, rfl, rfl, rfl, rfl, rfl⟩
      exact ⟨hg, hw, ha, he, hm, ht⟩
    · rintro ⟨hg, hw, ha, he, hm, ht⟩
      exact ⟨_, rfl, gateway, hg, web, hw, audit, ha, exports, he, mcp, hm, targets, ht,
        rfl, rfl, rfl, rfl, rfl, rfl⟩
  · simp [hknown]

/-- A configuration that was read is completed by the environment and checked. -/
theorem finish_eq_ok {c cfg : LoadedConfig} : c.finish x.toConfigCrates var = .ok cfg ↔
    ∃ web, c.web.applyEnv var = .ok web ∧ cfg = { c with web := web } ∧
      cfg.toConfig.validate x.toConfigCrates = .ok () := by
  unfold LoadedConfig.finish
  cases hweb : c.web.applyEnv var with
  | error e => simp
  | ok web =>
    cases hvalid : Config.validate x.toConfigCrates { c with web := web } with
    | error e =>
      simp only [hvalid, reduceCtorEq, Except.ok.injEq, exists_eq_left', false_iff, not_and]
      rintro rfl hok
      exact absurd (hvalid.symm.trans hok) nofun
    | ok =>
      simp only [hvalid, Except.ok.injEq, exists_eq_left']
      constructor
      · rintro rfl
        exact ⟨rfl, hvalid⟩
      · rintro ⟨rfl, -⟩
        rfl

/-- What was read when a configuration is loaded. -/
theorem load_eq_ok {text : String} {cfg : LoadedConfig} :
    load x base var text = .ok cfg ↔
      ∃ es c, x.toml text = some es ∧ readConfig x es = some c ∧
        (c.config x.toConfigCrates base).finish x.toConfigCrates var = .ok cfg := by
  unfold load
  cases htoml : x.toml text with
  | none => simp
  | some es =>
    cases hread : readConfig x es with
    | none => simp [hread]
    | some c => simp [hread]

end Load

/-! ## Valid targets -/

section Valid

variable {x : ConfigCrates}

/-- **Valid groups are apart.** -/
theorem pairwise_apart_of_validate {t : TargetConfig} (h : t.validateSummarise x = .ok ()) :
    t.summarise.Pairwise (Apart x) := by
  obtain ⟨-, -, hvalid, -, hunshared⟩ := validateSummarise_eq_ok_iff.1 h
  refine hunshared.imp_of_mem fun {a b} _ hb hab hoverlap => ⟨fun n hn => ?_, (hvalid b hb).named⟩
  cases hparse : parseNode x n with
  | none => rfl
  | some node =>
    have hholds : b.Holds x node := List.mem_filterMap.2 ⟨n, hn, hparse⟩
    exact decide_eq_true fun ha => hab hoverlap node ha hholds

/-- The groups of every target were checked. -/
theorem validateSummarise_of_validateFrom {webListen : SocketAddr} {targets : List TargetConfig}
    {names : List String} {listens : List SocketAddr}
    (h : validateFrom x webListen names listens targets = .ok ()) :
    ∀ t ∈ targets, t.validateSummarise x = .ok () := by
  induction targets generalizing names listens with
  | nil => exact fun _ => nofun
  | cons t targets ih =>
    unfold validateFrom at h
    split at h
    · cases h
    · next hvalid =>
      refine List.forall_mem_cons.2 ⟨?_, ih h⟩
      unfold TargetConfig.validate at hvalid
      split_ifs at hvalid
      exact hvalid

/-- The targets of a valid configuration were checked. -/
theorem validateTargets_of_validate {c : Config} (h : c.validate x = .ok ()) :
    validateTargets x c.web.listen c.targets = .ok () := by
  unfold Config.validate at h
  split_ifs at h
  split at h
  · cases h
  · cases htargets : validateTargets x c.web.listen c.targets with
    | ok => rfl
    | error e =>
      rw [htargets] at h
      cases h

/-- A valid target in the new form stays as it is. -/
theorem migrate_of_valid {t : TargetConfig} (h : t.validateSummarise x = .ok ()) :
    TargetSection.migrate x { t with } = ({ t with }, []) := by
  have hdrop : dropOverlaps x t.name t.summarise = (t.summarise, []) :=
    dropOverlaps_of_apart (pairwise_apart_of_validate h)
  unfold TargetSection.migrate TargetSection.dropSummariseOverlaps
  dsimp only [TargetSection.migrateIgnore, List.foldl_nil]
  rw [hdrop]

end Valid

end AuditGateway
