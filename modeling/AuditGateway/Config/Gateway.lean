import AuditGateway.Web.AuditSettings
import AuditGateway.Web.ExportSettings

set_option relaxedAutoImplicit false
set_option autoImplicit false

/-!
# The configuration

The sections of the configuration and what `Config::validate` demands of them. The old form of the
targets' rules and of the export is read but not kept.

## Main definitions

* `GatewayConfig`, `WebConfig`, `ExportSections`, `Config` — the sections.
* `Config.validate` — what is refused, and why.
-/

namespace AuditGateway

/-- The application of the gateway and its certificates. -/
structure GatewayConfig where
  /-- Application name presented to clients and to upstream servers. -/
  applicationName : String := "OPC UA Audit Gateway"
  applicationUri : Option String := none
  /-- Directory holding the OPC UA certificate store. -/
  pkiDir : String := "pki"
  /-- Directory for runtime data such as the audit database. -/
  dataDir : String := "data"
  /-- Extra host names or IP addresses for the certificate. -/
  certificateHostnames : List String := []
  deriving DecidableEq

/-- An IP address, by its text. -/
structure IpAddr where
  text : String
  deriving DecidableEq

/-- Where the web UI listens, and who may use it. -/
structure WebConfig where
  listen : SocketAddr := ⟨"127.0.0.1:8080"⟩
  tls : Bool := false
  tlsCertificate : Option String := none
  tlsPrivateKey : Option String := none
  allowedHosts : List String := []
  trustedProxies : List IpAddr := []
  deriving DecidableEq

/-- Where the records are exported to. -/
structure ExportSections where
  questdb : Option QuestDbSection := none
  /-- There is a section that is no longer supported: it is ignored. -/
  syslog : Bool := false

/-- The whole configuration. -/
structure Config where
  gateway : GatewayConfig := {}
  web : WebConfig := {}
  audit : AuditConfig := {}
  exports : ExportSections := {}
  targets : List TargetConfig := []

/-- Why a configuration is refused. -/
inductive ConfigError
  | summaryInterval
  | oneTlsFile
  | tlsFilesUnused
  | questdb (e : ExportRefusal)
  | target (e : TargetError)
  deriving DecidableEq

/-- The text of an error, where the library does not say it. -/
def ConfigError.message (x : ConfigCrates) : ConfigError → Option String
  | .summaryInterval => "audit.ignored_summary_secs must be > 0"
  | .oneTlsFile => "web: set both tls_certificate and tls_private_key, or neither"
  | .tlsFilesUnused => "web: tls_certificate is set but tls = false"
  | .questdb e => e.message
  | .target e => e.message x

namespace Config

/-- What every configuration is checked for. -/
def validate (x : ConfigCrates) (c : Config) : Except ConfigError Unit :=
  if c.audit.ignoredSummarySecs = 0 then .error .summaryInterval
  else if c.web.tlsCertificate.isSome ≠ c.web.tlsPrivateKey.isSome then .error .oneTlsFile
  else if c.web.tlsCertificate.isSome ∧ ¬ c.web.tls then .error .tlsFilesUnused
  else
    match c.exports.questdb.map QuestDbSection.validate with
    | some (.error e) => .error (.questdb e)
    | _ => (validateTargets x c.web.listen c.targets).mapError .target

end Config

end AuditGateway
