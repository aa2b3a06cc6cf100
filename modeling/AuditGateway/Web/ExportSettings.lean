import AuditGateway.Config.Target
import AuditGateway.Export.QuestDb
import AuditGateway.Lib.Machine
import AuditGateway.Targets.Manager

set_option relaxedAutoImplicit false
set_option autoImplicit false

/-!
# Changes of the export settings

A request to change the export settings reads the configuration, writes the CA it was given to a
file, builds the new section and checks it, moves the file into place, replaces the section under
the lock of the configuration, and at last stops the exporters and starts the new one. A password
or token that the request leaves out is taken from the section that was read, if that names the
same server.

## Main definitions

* `QuestDbSection`, `QuestDbInput` — the section, and what a request gives.
* `sameServer`, `QuestDbInput.build` — which stored secrets are kept.
* `ExportCall`, `ExportChanges`, `ExportChanges.step` — the requests, the configuration and the
  exporters.
* `ExportChanges.Entitled` — a secret was loaded with, or given for, a server.

## Main results

* `sameServer_symm`, `sameServer_trans` — the same server is the same origin.
* `ExportChanges.entitled_of_run` — no run carries a secret to another server.
-/

namespace AuditGateway

/-! ## Servers -/

/-- The functions of other crates that read addresses and certificates. -/
structure ServerCrates where
  parseUri : String → Option Uri
  scheme : Uri → Option String
  host : Uri → Option String
  port : Uri → Option ℕ
  /-- The TLS configuration with some CA certificates, or with the public roots. -/
  clientConfig : Option String → Except String Unit

/-- A text in lower case. -/
def asciiLower (s : String) : String := String.ofList (s.toList.map Char.toLower)

/-- The port of a scheme. -/
def defaultPort (scheme : String) : Option ℕ :=
  if scheme = "http" then some 80 else if scheme = "https" then some 443 else none

/-- Scheme, host and port of a URL. -/
def origin (x : ServerCrates) (url : String) : Option (String × String × Option ℕ) := do
  let uri ← x.parseUri (trim url)
  let scheme := asciiLower (← x.scheme uri)
  let host := asciiLower (← x.host uri)
  some (scheme, host, (x.port uri).or (defaultPort scheme))

/-- Whether two URLs name the same server: scheme, host and port (with the scheme's default port).
Unparseable URLs never match. -/
def sameServer (x : ServerCrates) (a b : String) : Bool :=
  match origin x a, origin x b with
  | some a, some b => a = b
  | _, _ => false

/-- Two URLs lead to the same server iff they have one and the same origin. -/
theorem sameServer_iff {x : ServerCrates} {a b : String} :
    sameServer x a b ↔ ∃ server, origin x a = some server ∧ origin x b = some server := by
  unfold sameServer
  cases origin x a with
  | none => simp
  | some server =>
    cases origin x b with
    | none => simp
    | some server' => simp [eq_comm]

/-- Being on the same server is symmetric. -/
theorem sameServer_symm {x : ServerCrates} {a b : String} (h : sameServer x a b) :
    sameServer x b a := by
  obtain ⟨server, ha, hb⟩ := sameServer_iff.1 h
  exact sameServer_iff.2 ⟨server, hb, ha⟩

/-- Being on the same server is transitive. -/
theorem sameServer_trans {x : ServerCrates} {a b c : String} (hab : sameServer x a b)
    (hbc : sameServer x b c) : sameServer x a c := by
  obtain ⟨server, ha, hb⟩ := sameServer_iff.1 hab
  obtain ⟨server', hb', hc⟩ := sameServer_iff.1 hbc
  obtain rfl := Option.some.inj (hb.symm.trans hb')
  exact sameServer_iff.2 ⟨server, ha, hc⟩

/-! ## The section and what is given for it -/

/-- The `[export.questdb]` section. -/
structure QuestDbSection extends QuestDbConfig where
  /-- Bearer token, or `username` and `password`. -/
  token : Option String := none
  username : Option String := none
  password : Option String := none
  intervalSecs : ℕ := 5

/-- What a request gives. -/
structure QuestDbInput where
  url : String
  table : String
  username : Option String := none
  password : Option String := none
  token : Option String := none
  /-- CA certificates (PEM) for https with a private CA; empty: public roots. -/
  caPem : Option String := none
  intervalSecs : ℕ

/-- The secrets of a section. -/
inductive SecretKind
  | password
  | token

/-- The secret of a kind in a section. -/
def QuestDbSection.secret (q : QuestDbSection) : SecretKind → Option String
  | .password => q.password
  | .token => q.token

/-- The secret of a kind in a request. -/
def QuestDbInput.secret (q : QuestDbInput) : SecretKind → Option String
  | .password => q.password
  | .token => q.token

/-- Why a request is refused. -/
inductive ExportRefusal
  | notAdmin
  | notPem
  | writeCa
  | emptyTable
  | zeroInterval
  /-- A bad URL or an unusable CA. -/
  | unusable (reason : String)
  | renameCa
  | urlScheme
  | urlCredentials
  | tokenAndPassword
  | sectionInterval
  | writeConfig
  | openState
  deriving DecidableEq

/-- What the client is told, where the text is the gateway's own. -/
def ExportRefusal.message : ExportRefusal → Option String
  | .notPem =>
    "QuestDB: the CA must be one or more PEM certificates (-----BEGIN CERTIFICATE-----)"
  | .emptyTable => "QuestDB: table is empty"
  | .zeroInterval => "the interval must be at least 1 s"
  | .unusable reason => reason
  | .urlScheme => "export.questdb.url must start with http:// or https://"
  | .urlCredentials =>
    "export.questdb.url must not contain credentials; use token or username/password"
  | .tokenAndPassword => "export.questdb: use either token or username/password"
  | .sectionInterval => "export.questdb.interval_secs must be > 0"
  | .notAdmin | .writeCa | .renameCa | .writeConfig | .openState => none

/-- The largest CA file that is taken. -/
def maxPem : ℕ := 256 * 1024

/-- Whether a text is somewhere in another. -/
def containsText (s text : String) : Bool := s.toList.tails.any (text.toList.isPrefixOf ·)

/-- A text that is not blank. -/
def nonEmpty (v : Option String) : Option String := (v.map trim).filter (· ≠ "")

/-- A secret in a form: absent keeps the stored one, empty removes it. -/
def secret (input stored : Option String) : Option String :=
  match input with
  | none => stored
  | some v => if v = "" then none else some v

/-- Where a CA given in the settings is kept, next to the export state. -/
def managedCa (dataDir : String) : String := dataDir ++ "/questdb-ca.pem"

/-- Where it is written first. -/
def newCa (dataDir : String) : String := dataDir ++ "/questdb-ca.pem.new"

namespace QuestDbInput

/-- The CA that is given. -/
def pem (q : QuestDbInput) : Option String := nonEmpty q.caPem

/-- The text is no CA that is taken. -/
def badPem (pem : String) : Bool :=
  maxPem < pem.utf8ByteSize ∨ ¬containsText pem "-----BEGIN CERTIFICATE-----"

/-- The URL without the blanks around it and the slashes at its end. -/
def serverUrl (q : QuestDbInput) : String := trimSlashes (trim q.url)

/-- The new section. Stored credentials only go to the server they were given for: a new scheme,
host or port needs them again. -/
def build (x : ServerCrates) (dataDir : String) (q : QuestDbInput)
    (current : Option QuestDbSection) : QuestDbSection :=
  let stored := current.filter fun st => sameServer x st.url q.serverUrl
  { url := q.serverUrl
    table := trim q.table
    username := nonEmpty q.username
    password := AuditGateway.secret q.password (stored.bind (·.password))
    token := AuditGateway.secret q.token (stored.bind (·.token))
    caFile := q.pem.map fun _ => newCa dataDir
    intervalSecs := q.intervalSecs }

end QuestDbInput

namespace QuestDbSection

/-- What is looked at before the section is used. -/
def precheck (q : QuestDbSection) : Except ExportRefusal Unit :=
  if q.table = "" then .error .emptyTable
  else if q.intervalSecs = 0 then .error .zeroInterval
  else .ok ()

/-- What the configuration demands of the section. -/
def validate (q : QuestDbSection) : Except ExportRefusal Unit :=
  let rest :=
    if "http://".toList.isPrefixOf q.url.toList then some (q.url.toList.drop 7)
    else if "https://".toList.isPrefixOf q.url.toList then some (q.url.toList.drop 8)
    else none
  match rest with
  | none => .error .urlScheme
  | some rest =>
    if '@' ∈ rest.takeWhile (· ≠ '/') then .error .urlCredentials
    else if q.token.isSome ∧ (q.username.isSome ∨ q.password.isSome) then .error .tokenAndPassword
    else if q.intervalSecs = 0 then .error .sectionInterval
    else .ok ()

end QuestDbSection

/-! ## Requests -/

/-- How the writing of the CA file ends. -/
inductive CaWrite
  | ok
  /-- This is in the file then. -/
  | failed (left : Option String)

/-- How far a request is. -/
inductive ExportStage
  | arrived
  /-- It has read the section. -/
  | read (current : Option QuestDbSection)
  /-- The CA is written, and the section built from it. -/
  | built (section_ : Option QuestDbSection)
  | checked (section_ : Option QuestDbSection)
  /-- The CA is in its place. -/
  | placed (section_ : Option QuestDbSection)
  /-- The section is in the configuration. -/
  | updated (section_ : Option QuestDbSection)
  /-- The new exporter is made. -/
  | prepared (section_ : Option QuestDbSection)
  /-- The old exporters are stopped. -/
  | drained (q : QuestDbSection)
  /-- The positions are open. -/
  | opened (q : QuestDbSection)
  | done (result : Except ExportRefusal Unit)

/-- A call that changes the export, and how far it is. -/
structure ExportCall where
  isAdmin : Bool
  /-- `none` turns the export off. -/
  input : Option QuestDbInput
  stage : ExportStage := .arrived

/-- The section in memory and in the file, the contents of the CA files, the sections of the
exporters that run, whether the positions were opened, and the requests. -/
structure ExportChanges where
  memory : Option QuestDbSection
  file : Option QuestDbSection
  files : String → Option String
  tasks : List QuestDbSection
  stateOpen : Bool
  calls : List ExportCall := []

namespace ExportChanges

/-- What a request does next, with how it ends. -/
inductive Event
  | read
  | writeCa (result : CaWrite)
  | check
  | placeCa (ok : Bool)
  | update (write : FileWrite)
  | prepare
  | drain
  | openState (ok : Bool)
  | start

/-- What can happen. -/
inductive Op
  | call (isAdmin : Bool) (input : Option QuestDbInput)
  /-- Request number `i` goes on. -/
  | run (i : ℕ) (event : Event)

/-- Request number `i` has come to a stage. -/
def put (s : ExportChanges) (i : ℕ) (call : ExportCall) (stage : ExportStage) : ExportChanges :=
  { s with calls := s.calls.set i { call with stage := stage } }

/-- Request number `i` is refused. -/
def refuse (s : ExportChanges) (i : ℕ) (call : ExportCall) (e : ExportRefusal) : ExportChanges :=
  s.put i call (.done (.error e))

variable (x : ServerCrates) (dataDir : String)

/-- The functions a destination is made with, when the files have these contents. -/
def http (files : String → Option String) : HttpCrates where
  parseUri := x.parseUri
  scheme := x.scheme
  clientConfig
    | none => x.clientConfig none
    | some path =>
      match files path with
      | none => .error ("reading " ++ path)
      | some pem => x.clientConfig (some pem)

/-- The exporters of a section. -/
def sinks (s : ExportChanges) : Option QuestDbSection → Except String (List QuestDbSection)
  | none => .ok []
  | some q => (QuestDbSink.new (http x s.files) q.toQuestDbConfig).map fun _ => [q]

/-- The CA that is given is in its first file. -/
def storeCa (s : ExportChanges) : Option String → ExportChanges
  | some pem => { s with files := Function.update s.files (newCa dataDir) (some (pem ++ "\n")) }
  | none => s

/-- The CA that is given is written to a file, and the section is built and looked at. -/
def writeCa (s : ExportChanges) (i : ℕ) (call : ExportCall) (current : Option QuestDbSection)
    (result : CaWrite) : ExportChanges :=
  match call.input with
  | none => s.put i call (.built none)
  | some q =>
    if q.pem.any QuestDbInput.badPem then s.refuse i call .notPem
    else
      match q.pem, result with
      | some _, .failed left =>
        { s with files := Function.update s.files (newCa dataDir) left }.refuse i call .writeCa
      | pem, _ =>
        let built := q.build x dataDir current
        match built.precheck with
        | .error e => (s.storeCa dataDir pem).refuse i call e
        | .ok () => (s.storeCa dataDir pem).put i call (.built (some built))

/-- The CA file is moved to the place where it is kept. -/
def placeCa (s : ExportChanges) (i : ℕ) (call : ExportCall) (section_ : Option QuestDbSection)
    (ok : Bool) : ExportChanges :=
  match section_ with
  | none => s.put i call (.placed none)
  | some q =>
    match q.caFile with
    | none => s.put i call (.placed (some q))
    | some _ =>
      match s.files (newCa dataDir), ok with
      | some pem, true =>
        let files := Function.update (Function.update s.files (newCa dataDir) none)
          (managedCa dataDir) (some pem)
        { s with files := files }.put i call
          (.placed (some { q with caFile := some (managedCa dataDir) }))
      | _, _ => s.refuse i call .renameCa

/-- The section is replaced under the lock of the configuration. -/
def update (s : ExportChanges) (i : ℕ) (call : ExportCall) (section_ : Option QuestDbSection)
    (write : FileWrite) : ExportChanges :=
  match (section_.map (·.validate)).getD (.ok ()) with
  | .error e => s.refuse i call e
  | .ok () =>
    match write with
    | .ok => { s with memory := section_, file := section_ }.put i call (.updated section_)
    | .failed => s.refuse i call .writeConfig
    | .unsynced => { s with file := section_ }.refuse i call .writeConfig

/-- A request goes on from its stage. -/
def runCall (s : ExportChanges) (i : ℕ) (call : ExportCall) :
    Event → ExportStage → Option ExportChanges
  | .read, .arrived =>
    if call.isAdmin then some (s.put i call (.read s.memory)) else some (s.refuse i call .notAdmin)
  | .writeCa result, .read current => some (s.writeCa x dataDir i call current result)
  | .check, .built section_ =>
    match s.sinks x section_ with
    | .error e => some (s.refuse i call (.unusable e))
    | .ok _ => some (s.put i call (.checked section_))
  | .placeCa ok, .checked section_ => some (s.placeCa dataDir i call section_ ok)
  | .update write, .placed section_ => some (s.update i call section_ write)
  | .prepare, .updated section_ =>
    match s.sinks x section_ with
    | .error e => some (s.refuse i call (.unusable e))
    | .ok _ => some (s.put i call (.prepared section_))
  | .drain, .prepared section_ =>
    some ({ s with tasks := [] }.put i call (match section_ with
      | none => .done (.ok ())
      | some q => .drained q))
  | .openState ok, .drained q =>
    if s.stateOpen ∨ ok then some ({ s with stateOpen := true }.put i call (.opened q))
    else some (s.refuse i call .openState)
  | .start, .opened q =>
    some ({ s with tasks := s.tasks ++ [q] }.put i call (.done (.ok ())))
  | _, _ => none

/-- One operation. -/
def step (s : ExportChanges) : Op → Option ExportChanges
  | .call isAdmin input =>
    some { s with calls := s.calls ++ [{ isAdmin := isAdmin, input := input }] }
  | .run i event => s.calls[i]?.bind fun call => s.runCall x dataDir i call event call.stage

/-- A gateway that has loaded its configuration and started its exporters. -/
def load (section_ : Option QuestDbSection) (files : String → Option String) : ExportChanges where
  memory := section_
  file := section_
  files := files
  tasks := section_.toList
  stateOpen := section_.isSome

/-! ## Where secrets come from -/

/-- Two URLs that name the same server. -/
def SameServer (a b : String) : Prop := a = b ∨ sameServer x a b

/-- A secret was loaded with a URL of this server, or an administrator gave it for one. -/
def Entitled (loaded : Option QuestDbSection) (calls : List ExportCall) (kind : SecretKind)
    (value url : String) : Prop :=
  (∃ q, loaded = some q ∧ q.secret kind = some value ∧ SameServer x q.url url) ∨
    ∃ call ∈ calls, call.isAdmin ∧ ∃ q, call.input = some q ∧ q.secret kind = some value ∧
      SameServer x q.serverUrl url

/-- Every secret of a section belongs to its server. -/
def Rightful (loaded : Option QuestDbSection) (calls : List ExportCall)
    (section_ : Option QuestDbSection) : Prop :=
  ∀ q, section_ = some q → ∀ kind value, q.secret kind = some value →
    Entitled x loaded calls kind value q.url

variable {x dataDir} {s t : ExportChanges}

/-! ### What a section may hold -/

/-- Leading to the same server is transitive. -/
theorem SameServer.trans {a b c : String} (hab : SameServer x a b) (hbc : SameServer x b c) :
    SameServer x a c := by
  rcases hab with rfl | hab
  · exact hbc
  · rcases hbc with rfl | hbc
    · exact .inr hab
    · exact .inr (sameServer_trans hab hbc)

/-- A secret that may go to a server may go to the same server under another URL. -/
theorem Entitled.trans {loaded : Option QuestDbSection} {calls : List ExportCall}
    {kind : SecretKind} {value a b : String} (h : Entitled x loaded calls kind value a)
    (hab : SameServer x a b) : Entitled x loaded calls kind value b := by
  rcases h with ⟨q, hq, hvalue, ha⟩ | ⟨call, hcall, hadmin, q, hq, hvalue, ha⟩
  · exact .inl ⟨q, hq, hvalue, ha.trans hab⟩
  · exact .inr ⟨call, hcall, hadmin, q, hq, hvalue, ha.trans hab⟩

/-- What requests have given stays given. -/
theorem Entitled.mono {loaded : Option QuestDbSection} {calls calls' : List ExportCall}
    (hcalls : ∀ call ∈ calls, ∃ call' ∈ calls',
      call'.isAdmin = call.isAdmin ∧ call'.input = call.input)
    {kind : SecretKind} {value url : String} (h : Entitled x loaded calls kind value url) :
    Entitled x loaded calls' kind value url := by
  rcases h with hq | ⟨call, hcall, hadmin, q, hq, hvalue, hurl⟩
  · exact .inl hq
  · obtain ⟨call', hcall', hadmin', hinput⟩ := hcalls call hcall
    exact .inr ⟨call', hcall', hadmin'.trans hadmin, q, hinput.trans hq, hvalue, hurl⟩

/-- A secret of a form is the one given, or the stored one if none is given. -/
theorem secret_eq_some {input stored : Option String} {value : String}
    (h : secret input stored = some value) :
    input = some value ∨ input = none ∧ stored = some value := by
  unfold secret at h
  split at h
  · exact .inr ⟨rfl, h⟩
  · split_ifs at h
    exact .inl h

/-- What the secrets of a built section are. -/
theorem secret_build {q : QuestDbInput} {current : Option QuestDbSection} {kind : SecretKind}
    {value : String} (h : (q.build x dataDir current).secret kind = some value) :
    q.secret kind = some value ∨
      ∃ stored, current = some stored ∧ stored.secret kind = some value ∧
        sameServer x stored.url q.serverUrl := by
  have hstored : ∀ {field : QuestDbSection → Option String},
      ((current.filter fun st => sameServer x st.url q.serverUrl).bind field) = some value →
        ∃ stored, current = some stored ∧ field stored = some value ∧
          sameServer x stored.url q.serverUrl := by
    intro field hfield
    obtain ⟨stored, hcurrent, hvalue⟩ := Option.bind_eq_some_iff.1 hfield
    obtain ⟨hcurrent, hserver⟩ := Option.filter_eq_some_iff.1 hcurrent
    exact ⟨stored, hcurrent, hvalue, hserver⟩
  cases kind with
  | password =>
    simp only [QuestDbSection.secret, QuestDbInput.build] at h
    rcases secret_eq_some h with hgiven | ⟨-, hkept⟩
    · exact .inl hgiven
    · exact .inr (hstored hkept)
  | token =>
    simp only [QuestDbSection.secret, QuestDbInput.build] at h
    rcases secret_eq_some h with hgiven | ⟨-, hkept⟩
    · exact .inl hgiven
    · exact .inr (hstored hkept)

/-- **What is built is rightful** if what was read is: kept secrets stay with their server. -/
theorem rightful_build {loaded current : Option QuestDbSection} {calls : List ExportCall}
    (h : Rightful x loaded calls current) {call : ExportCall} (hcall : call ∈ calls)
    (hadmin : call.isAdmin) {q : QuestDbInput} (hinput : call.input = some q) :
    Rightful x loaded calls (some (q.build x dataDir current)) := by
  intro built hbuilt kind value hvalue
  obtain rfl : q.build x dataDir current = built := Option.some.inj hbuilt
  rcases secret_build hvalue with hgiven | ⟨stored, hcurrent, hvalue, hserver⟩
  · exact .inr ⟨call, hcall, hadmin, q, hinput, hgiven, .inl rfl⟩
  · exact (h stored hcurrent kind value hvalue).trans (.inr hserver)

/-- The section that a request carries. -/
def carried : ExportStage → Option QuestDbSection
  | .arrived | .done _ => none
  | .read section_ | .built section_ | .checked section_ | .placed section_ | .updated section_
  | .prepared section_ => section_
  | .drained q | .opened q => some q

/-- A request that has not begun, or has ended. -/
def idle : ExportStage → Bool
  | .arrived | .done _ => true
  | _ => false

/-- What every run keeps: all sections are rightful, and a request that goes on is that of an
administrator. -/
structure Inv (loaded : Option QuestDbSection) (s : ExportChanges) : Prop where
  memory : Rightful x loaded s.calls s.memory
  file : Rightful x loaded s.calls s.file
  calls : ∀ call ∈ s.calls, Rightful x loaded s.calls (carried call.stage) ∧
    (call.isAdmin = false → idle call.stage)

/-! ### What a request can do -/

/-- What a request carries after an operation, and what it carried before. -/
inductive Carries (x : ServerCrates) (dataDir : String) (s : ExportChanges) (call : ExportCall) :
    Option QuestDbSection → Prop
  | nothing : Carries x dataDir s call none
  | read (h : call.isAdmin) : Carries x dataDir s call s.memory
  | kept : Carries x dataDir s call (carried call.stage)
  | built (q : QuestDbInput) (current : Option QuestDbSection) (hstage : call.stage = .read current)
      (h : call.input = some q) : Carries x dataDir s call (some (q.build x dataDir current))
  | placed (q : QuestDbSection) (h : carried call.stage = some q) (caFile : Option String) :
    Carries x dataDir s call (some { q with caFile := caFile })

/-- What one operation of a request does to the configuration. -/
structure Turn (x : ServerCrates) (dataDir : String) (s t : ExportChanges) (i : ℕ)
    (call : ExportCall)
    (stage : ExportStage) : Prop where
  calls : t.calls = s.calls.set i { call with stage := stage }
  memory : t.memory = s.memory ∨ t.memory = carried call.stage
  file : t.file = s.file ∨ t.file = carried call.stage
  carries : Carries x dataDir s call (carried stage)
  admin : call.isAdmin = false → idle call.stage → idle stage

/-- The section of a request is in the configuration, and the exporters are to follow. -/
def applying : ExportStage → Bool
  | .updated _ | .prepared _ | .drained _ | .opened _ => true
  | _ => false

/-- An operation before the section of a request is in the configuration. -/
structure Quiet (s t : ExportChanges) (i : ℕ) (call : ExportCall) (stage : ExportStage) : Prop where
  calls : t.calls = s.calls.set i { call with stage := stage }
  memory : t.memory = s.memory
  file : t.file = s.file
  tasks : t.tasks = s.tasks
  before : applying call.stage = false
  after : applying stage = false

/-- A step that changes nothing else is a turn of its call. -/
theorem Quiet.turn {i : ℕ} {call : ExportCall} {stage : ExportStage} (h : Quiet s t i call stage)
    (hcarries : Carries x dataDir s call (carried stage))
    (hadmin : call.isAdmin = false → idle call.stage → idle stage) :
    Turn x dataDir s t i call stage :=
  ⟨h.calls, .inl h.memory, .inl h.file, hcarries, hadmin⟩

/-- A call that goes on has its turn. -/
theorem turn_put {i : ℕ} {call : ExportCall} (stage : ExportStage)
    (hcarries : Carries x dataDir s call (carried stage))
    (hadmin : call.isAdmin = false → idle call.stage → idle stage) :
    Turn x dataDir s (s.put i call stage) i call stage :=
  ⟨rfl, .inl rfl, .inl rfl, hcarries, hadmin⟩

/-- A call that is refused has its turn. -/
theorem turn_refuse (i : ℕ) (call : ExportCall) (e : ExportRefusal) :
    Turn x dataDir s (s.refuse i call e) i call (.done (.error e)) :=
  turn_put _ .nothing fun _ _ => rfl

/-- Checking the CA and writing it is a turn. -/
theorem turn_writeCa {i : ℕ} {call : ExportCall} {current : Option QuestDbSection}
    (hstage : call.stage = .read current) (result : CaWrite) :
    ∃ stage, Quiet s (s.writeCa x dataDir i call current result) i call stage ∧
      Turn x dataDir s (s.writeCa x dataDir i call current result) i call stage := by
  have hadmin : ∀ {stage : ExportStage}, call.isAdmin = false → idle call.stage → idle stage := by
    intro stage _ hidle
    rw [hstage] at hidle
    cases hidle
  have hbefore : applying call.stage = false := by
    rw [hstage]
    rfl
  unfold writeCa
  split
  · exact ⟨_, ⟨rfl, rfl, rfl, rfl, hbefore, rfl⟩, turn_put _ .nothing hadmin⟩
  · next q hinput =>
    split_ifs
    · exact ⟨_, ⟨rfl, rfl, rfl, rfl, hbefore, rfl⟩, turn_refuse i call _⟩
    · split
      · exact ⟨_, ⟨rfl, rfl, rfl, rfl, hbefore, rfl⟩, rfl, .inl rfl, .inl rfl, .nothing, hadmin⟩
      · have hstore : ∀ stage, applying stage = false →
            Quiet s ((s.storeCa dataDir q.pem).put i call stage) i call stage := by
          intro stage hafter
          cases q.pem <;> exact ⟨rfl, rfl, rfl, rfl, hbefore, hafter⟩
        cases hcheck : (q.build x dataDir current).precheck with
        | error e =>
          simp only [hcheck]
          exact ⟨_, hstore _ rfl, (hstore _ rfl).turn .nothing hadmin⟩
        | ok =>
          simp only [hcheck]
          exact ⟨_, hstore _ rfl, (hstore _ rfl).turn (.built q current hstage hinput) hadmin⟩

/-- Putting the CA in its place is a turn. -/
theorem turn_placeCa {i : ℕ} {call : ExportCall} {section_ : Option QuestDbSection}
    (hstage : call.stage = .checked section_) (ok : Bool) :
    ∃ stage, Quiet s (s.placeCa dataDir i call section_ ok) i call stage ∧
      Turn x dataDir s (s.placeCa dataDir i call section_ ok) i call stage := by
  have hcarried : carried call.stage = section_ := by
    rw [hstage]
    rfl
  have hadmin : ∀ {stage : ExportStage}, call.isAdmin = false → idle call.stage → idle stage := by
    intro stage _ hidle
    rw [hstage] at hidle
    cases hidle
  have hbefore : applying call.stage = false := by
    rw [hstage]
    rfl
  unfold placeCa
  split
  · exact ⟨_, ⟨rfl, rfl, rfl, rfl, hbefore, rfl⟩, turn_put _ .nothing hadmin⟩
  · next q =>
    split
    · exact ⟨_, ⟨rfl, rfl, rfl, rfl, hbefore, rfl⟩, turn_put _ (hcarried ▸ .kept) hadmin⟩
    · split
      · exact ⟨_, ⟨rfl, rfl, rfl, rfl, hbefore, rfl⟩, rfl, .inl rfl, .inl rfl,
          .placed q hcarried _, hadmin⟩
      · exact ⟨_, ⟨rfl, rfl, rfl, rfl, hbefore, rfl⟩, turn_refuse i call _⟩

/-- Writing the configuration is a turn. -/
theorem turn_update {i : ℕ} {call : ExportCall} {section_ : Option QuestDbSection}
    (hstage : call.stage = .placed section_) (write : FileWrite) :
    ∃ stage, Turn x dataDir s (s.update i call section_ write) i call stage := by
  have hcarried : carried call.stage = section_ := by
    rw [hstage]
    rfl
  unfold update
  split
  · exact ⟨_, turn_refuse i call _⟩
  · cases write with
    | ok =>
      refine ⟨_, rfl, .inr hcarried.symm, .inr hcarried.symm, hcarried ▸ .kept, fun _ hidle => ?_⟩
      rw [hstage] at hidle
      cases hidle
    | failed => exact ⟨_, turn_refuse i call _⟩
    | unsynced => exact ⟨_, rfl, .inl rfl, .inr hcarried.symm, .nothing, fun _ _ => rfl⟩

/-- **What a request can do**: every operation of a request is one of its turns. -/
theorem turn {i : ℕ} {call : ExportCall} {event : Event}
    (h : s.runCall x dataDir i call event call.stage = some t) :
    ∃ stage, Turn x dataDir s t i call stage := by
  generalize hstage : call.stage = stage at h
  have hkept : Carries x dataDir s call (carried stage) := hstage ▸ .kept
  have hadmin : ∀ {stage' : ExportStage}, ¬idle stage → call.isAdmin = false →
      idle call.stage → idle stage' :=
    fun hidle _ hcall => absurd (hstage ▸ hcall) hidle
  unfold runCall at h
  split at h
  · split_ifs at h with hcall
    · cases h
      refine ⟨_, turn_put _ (.read hcall) fun hnot => ?_⟩
      rw [hcall] at hnot
      cases hnot
    · cases h
      exact ⟨_, turn_refuse i call _⟩
  · cases h
    obtain ⟨stage, -, hturn⟩ := turn_writeCa hstage _
    exact ⟨stage, hturn⟩
  · split at h
    · cases h
      exact ⟨_, turn_refuse i call _⟩
    · cases h
      exact ⟨_, turn_put _ hkept (hadmin nofun)⟩
  · cases h
    obtain ⟨stage, -, hturn⟩ := turn_placeCa hstage _
    exact ⟨stage, hturn⟩
  · cases h
    exact turn_update hstage _
  · split at h
    · cases h
      exact ⟨_, turn_refuse i call _⟩
    · cases h
      exact ⟨_, turn_put _ hkept (hadmin nofun)⟩
  · next section_ =>
    cases h
    cases section_ with
    | none => exact ⟨_, rfl, .inl rfl, .inl rfl, .nothing, hadmin nofun⟩
    | some q => exact ⟨_, rfl, .inl rfl, .inl rfl, hkept, hadmin nofun⟩
  · split_ifs at h
    · cases h
      exact ⟨_, rfl, .inl rfl, .inl rfl, hkept, hadmin nofun⟩
    · cases h
      exact ⟨_, turn_refuse i call _⟩
  · cases h
    exact ⟨_, rfl, .inl rfl, .inl rfl, .nothing, hadmin nofun⟩
  · cases h

/-! ### Runs -/

/-- More calls entitle to more. -/
theorem Rightful.mono {loaded section_ : Option QuestDbSection} {calls calls' : List ExportCall}
    (h : Rightful x loaded calls section_)
    (hcalls : ∀ call ∈ calls, ∃ call' ∈ calls',
      call'.isAdmin = call.isAdmin ∧ call'.input = call.input) :
    Rightful x loaded calls' section_ :=
  fun q hq kind value hvalue => (h q hq kind value hvalue).mono hcalls

/-- What a request carries on is rightful if all there was is. -/
theorem rightful_carries {loaded section_ : Option QuestDbSection} {call : ExportCall}
    (h : Inv (x := x) loaded s) (hcall : call ∈ s.calls)
    (hcarries : Carries x dataDir s call section_) : Rightful x loaded s.calls section_ := by
  cases hcarries with
  | nothing => exact fun _ => nofun
  | read => exact h.memory
  | kept => exact (h.calls call hcall).1
  | built q current hstage hinput =>
    have hadmin : call.isAdmin := by
      by_contra hnot
      have hidle := (h.calls call hcall).2 (by simpa using hnot)
      rw [hstage] at hidle
      cases hidle
    have hread := (h.calls call hcall).1
    rw [hstage] at hread
    exact rightful_build hread hcall hadmin hinput
  | placed q hq caFile =>
    intro q' hq' kind value hvalue
    obtain rfl := Option.some.inj hq'
    exact (h.calls call hcall).1 q hq kind value (by cases kind <;> exact hvalue)

/-- A turn keeps the invariant. -/
theorem inv_turn {loaded : Option QuestDbSection} {i : ℕ} {call : ExportCall}
    {stage : ExportStage} (h : Inv (x := x) loaded s) (hcall : s.calls[i]? = some call)
    (hturn : Turn x dataDir s t i call stage) : Inv (x := x) loaded t := by
  have hmem := List.mem_of_getElem? hcall
  have hcalls : ∀ c ∈ s.calls, ∃ c' ∈ t.calls, c'.isAdmin = c.isAdmin ∧ c'.input = c.input := by
    intro c hc
    rw [hturn.calls]
    obtain ⟨j, hj⟩ := List.getElem?_of_mem hc
    by_cases hij : i = j
    · subst hij
      obtain rfl := Option.some.inj (hcall.symm.trans hj)
      refine ⟨{ call with stage := stage }, List.mem_of_getElem? (i := i) ?_, rfl, rfl⟩
      rw [List.getElem?_set_self', hcall]
      rfl
    · refine ⟨c, List.mem_of_getElem? (i := j) ?_, rfl, rfl⟩
      rw [List.getElem?_set_ne hij, hj]
  refine ⟨?_, ?_, fun c hc => ?_⟩
  · rcases hturn.memory with hmemory | hmemory
    · rw [hmemory]
      exact h.memory.mono hcalls
    · rw [hmemory]
      exact (h.calls call hmem).1.mono hcalls
  · rcases hturn.file with hfile | hfile
    · rw [hfile]
      exact h.file.mono hcalls
    · rw [hfile]
      exact (h.calls call hmem).1.mono hcalls
  · rw [hturn.calls] at hc
    rcases List.mem_or_eq_of_mem_set hc with hc | rfl
    · exact ⟨(h.calls c hc).1.mono hcalls, (h.calls c hc).2⟩
    · refine ⟨(rightful_carries h hmem hturn.carries).mono hcalls, fun hadmin => ?_⟩
      exact hturn.admin hadmin ((h.calls call hmem).2 hadmin)

/-- Every step keeps the invariant. -/
theorem inv_step {loaded : Option QuestDbSection} (h : Inv (x := x) loaded s) {op : Op}
    (ht : s.step x dataDir op = some t) : Inv (x := x) loaded t := by
  cases op with
  | call isAdmin input =>
    cases ht
    have hcalls : ∀ c ∈ s.calls, ∃ c' ∈ s.calls ++ [{ isAdmin := isAdmin, input := input }],
        c'.isAdmin = c.isAdmin ∧ c'.input = c.input :=
      fun c hc => ⟨c, List.mem_append_left _ hc, rfl, rfl⟩
    refine ⟨h.memory.mono hcalls, h.file.mono hcalls, fun c hc => ?_⟩
    rcases List.mem_append.1 hc with hc | hc
    · exact ⟨(h.calls c hc).1.mono hcalls, (h.calls c hc).2⟩
    · rw [List.mem_singleton.1 hc]
      exact ⟨fun _ => nofun, fun _ => rfl⟩
  | run i event =>
    obtain ⟨call, hcall, ht⟩ := Option.bind_eq_some_iff.1 ht
    obtain ⟨stage, hturn⟩ := turn ht
    exact inv_turn h hcall hturn

/-- The invariant holds at the start. -/
theorem inv_load (loaded : Option QuestDbSection) (files : String → Option String) :
    Inv (x := x) loaded (load loaded files) := by
  have hloaded : Rightful x loaded [] loaded :=
    fun q hq kind value hvalue => .inl ⟨q, hq, hvalue, .inl rfl⟩
  exact ⟨hloaded, hloaded, fun _ => nofun⟩

/-- **No secret goes to another server**: in every run of requests, every secret in the
configuration, in memory and in the file, was loaded with a URL of its server or given for it. -/
theorem entitled_of_run {loaded : Option QuestDbSection} {files : String → Option String}
    {ops : List Op} (hrun : Machine.run (step x dataDir) (load loaded files) ops = some t)
    {q : QuestDbSection} (hq : t.memory = some q ∨ t.file = some q) {kind : SecretKind}
    {value : String} (hvalue : q.secret kind = some value) :
    Entitled x loaded t.calls kind value q.url := by
  have hinv := Machine.run_invariant (I := Inv (x := x) loaded)
    (fun _ _ _ hs ht => inv_step hs ht) (inv_load loaded files) hrun
  rcases hq with hq | hq
  · exact hinv.memory q hq kind value hvalue
  · exact hinv.file q hq kind value hvalue

/-! ### A server that keeps its password -/

/-- The lines of a certificate and the line behind them. -/
def pemBody : List String → String
  | [] => "-----END CERTIFICATE-----"
  | line :: lines => line ++ "\n" ++ pemBody lines

/-- A certificate as PEM text. -/
def pemText (lines : List String) : String := "-----BEGIN CERTIFICATE-----\n" ++ pemBody lines

/-- The self-signed certificate of a CA. -/
def questdbCa : String :=
  pemText
    ["MIIBQDCB86ADAgECAhRcbqERpdiUrea/REx9Q9x+VFC6ojAFBgMrZXAwFTETMBEG",
      "A1UEAwwKUXVlc3REQiBDQTAgFw0yNjExMjAwMDM0MjlaGA8yMTI2MTAyNzAwMzQy",
      "OVowFTETMBEGA1UEAwwKUXVlc3REQiBDQTAqMAUGAytlcAMhAKNKw1NLFFng2J2u",
      "vDDr81uJkId1Q9mIv+n1js9X3V+Yo1MwUTAdBgNVHQ4EFgQUTKx+QjrHIurqxnA8",
      "CvJdj6+5pwEwHwYDVR0jBBgwFoAUTKx+QjrHIurqxnA8CvJdj6+5pwEwDwYDVR0T",
      "AQH/BAUwAwEB/zAFBgMrZXADQQC1LQKI7Y9x13VnKcOdAU3M3swsbaTVS82a51YC",
      "Km+WGxy1UrmYzKcPZo0vqKgXHC2610YjjPD5utQXAE66BPgC"]

/-- That of another CA. -/
def otherCa : String :=
  pemText
    ["MIIBSDCB+6ADAgECAhQnVLA2d2/7CeqZG9kaBDrI1XCqeTAFBgMrZXAwGTEXMBUG",
      "A1UEAwwOTmV3IFF1ZXN0REIgQ0EwIBcNMjYxMTIwMDAzNDI5WhgPMjEyNjEwMjcw",
      "MDM0MjlaMBkxFzAVBgNVBAMMDk5ldyBRdWVzdERCIENBMCowBQYDK2VwAyEALnLq",
      "KLzQaPXDmCMNalY/8in4NIXrZ1JD9F/GYcqhc1SjUzBRMB0GA1UdDgQWBBSLaG14",
      "MJ3FUbXWHim5viXClfPeAjAfBgNVHSMEGDAWgBSLaG14MJ3FUbXWHim5viXClfPe",
      "AjAPBgNVHRMBAf8EBTADAQH/MAUGAytlcANBALah4YxUZWAw0SPWePN2/893dcS7",
      "IvLlxshHT/IGnWcQOpoIkDCuE8gCLEw5ILbbMzRkfewMH647kV56XJ1srQo="]

/-- Addresses of the form `scheme://host:port/path`, and the public roots or one of these CAs. -/
def plainServers : ServerCrates where
  parseUri text := if h : ' ' ∉ text.toList then some ⟨text, h⟩ else none
  scheme uri := some (String.ofList (uri.text.toList.takeWhile (· ≠ ':')))
  host uri :=
    let rest := (uri.text.toList.dropWhile (· ≠ '/')).drop 2
    some (String.ofList ((rest.takeWhile (· ≠ '/')).takeWhile (· ≠ ':')))
  port uri :=
    let rest := (uri.text.toList.dropWhile (· ≠ '/')).drop 2
    match (rest.takeWhile (· ≠ '/')).dropWhile (· ≠ ':') with
    | _ :: digits => some (digits.foldl (fun n c => 10 * n + (c.toNat - 48)) 0)
    | [] => none
  clientConfig
    | none => .ok ()
    | some pem =>
      if pem = questdbCa ++ "\n" ∨ pem = otherCa ++ "\n" then .ok () else .error "reading the CA"

/-- The section of the example. -/
def questdb : QuestDbSection where
  url := "http://questdb:9000"
  table := "audit"
  username := "gateway"
  password := "secret"

/-- The host is spelled in another way, and no password is given. -/
def sameQuestdb : QuestDbInput where
  url := "http://QuestDB:9000/db/"
  table := "audit"
  username := "gateway"
  intervalSecs := 5

/-- A request that is answered. -/
def putExport (input : QuestDbInput) : List Op :=
  [.call true (some input), .run 0 .read, .run 0 (.writeCa .ok), .run 0 .check,
    .run 0 (.placeCa true), .run 0 (.update .ok), .run 0 .prepare, .run 0 .drain,
    .run 0 (.openState true), .run 0 .start]

/-- The password is kept, and was loaded for this server. -/
theorem entitled_of_run_questdb : ∃ t q, Machine.run (step plainServers "data")
    (load (some questdb) fun _ => none) (putExport sameQuestdb) = some t ∧ t.memory = some q ∧
      q.url = "http://QuestDB:9000/db" ∧ q.password = some "secret" ∧
      Entitled plainServers (some questdb) t.calls .password "secret" q.url := by
  have hrun : (Machine.run (step plainServers "data") (load (some questdb) fun _ => none)
      (putExport sameQuestdb)).bind (fun t => t.memory.map fun q => (q.url, q.password)) =
        some ("http://QuestDB:9000/db", some "secret") := by decide +kernel
  obtain ⟨t, hrun, hmemory⟩ := Option.bind_eq_some_iff.1 hrun
  obtain ⟨q, hmemory, hq⟩ := Option.map_eq_some_iff.1 hmemory
  obtain ⟨hurl, hpassword⟩ := Prod.mk.inj hq
  have hsecret : q.secret .password = some "secret" := hpassword
  exact ⟨t, q, hrun, hmemory, hurl, hpassword, entitled_of_run hrun (.inl hmemory) hsecret⟩

/-- A password goes neither to another host nor to another port. -/
example : sameServer plainServers "http://questdb:9000" "http://attacker:9000" = false ∧
    sameServer plainServers "http://questdb:9000" "http://questdb:9001" = false ∧
    sameServer plainServers "https://q" "https://q:443/exec" = true := by decide +kernel

end ExportChanges

end AuditGateway
