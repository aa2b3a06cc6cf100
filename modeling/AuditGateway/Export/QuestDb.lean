import AuditGateway.Audit.Query

set_option relaxedAutoImplicit false
set_option autoImplicit false

/-!
# The QuestDB destination

Where exported records go, and how a batch is sent. A destination is the address records are
posted to and the table they go into; its name in the state file tells any two of them apart. A
batch is posted as a whole, and only if the server refuses it as malformed record by record, a
minimal line in place of a record that it refuses.

## Main definitions

* `QuestDbSink`, `QuestDbSink.new` — a destination, made from its configuration.
* `QuestDbSink.key` — its name in the state file.
* `QuestDbSink.send` — sends a batch.

## Main results

* `QuestDbSink.key_injective` — destinations with one name are one destination.
* `QuestDbSink.key_ne_name` — no name is that of the kind.
-/

namespace AuditGateway

/-- An address. There is no blank in its text. -/
structure Uri where
  text : String
  noBlank : ' ' ∉ text.toList
  deriving DecidableEq

/-- The `[export.questdb]` section, as far as it says where the records go. -/
structure QuestDbConfig where
  url : String
  table : String
  caFile : Option String := none

/-- The functions of other crates a destination is made with. -/
structure HttpCrates where
  parseUri : String → Option Uri
  scheme : Uri → Option String
  /-- The TLS configuration with the certificates of a file. -/
  clientConfig : Option String → Except String Unit

/-- A destination. What only goes into the requests is left out. -/
structure QuestDbSink where
  uri : Uri
  table : String
  deriving DecidableEq

/-- The text without the slashes at its end. -/
def trimSlashes (url : String) : String :=
  String.ofList (url.toList.reverse.dropWhile (· = '/')).reverse

/-- The status of an HTTP answer. -/
structure HttpStatus where
  code : ℕ
  text : String

/-- What is posted in one request. -/
inductive Body
  /-- The full lines of some records. -/
  | lines (records : List StoredRecord)
  /-- The line that stands in for a record the server refused for `reason`. -/
  | minimal (record : StoredRecord) (reason : String)

/-- What `post` returns: an error if there was no answer, `none` on success, else the status and
the server's reason. -/
abbrev PostResult := Except String (Option (HttpStatus × String))

namespace QuestDbSink

/-- A sink for a section, if its URL and its CA can be used. -/
def new (http : HttpCrates) (config : QuestDbConfig) : Except String QuestDbSink :=
  match http.parseUri (trimSlashes config.url ++ "/write?precision=n") with
  | none => .error ("invalid QuestDB url " ++ config.url)
  | some uri =>
    match http.scheme uri with
    | some "https" => (http.clientConfig config.caFile).map fun _ => ⟨uri, config.table⟩
    | _ => .ok ⟨uri, config.table⟩

/-- Where the records go, as text. -/
def destination (sink : QuestDbSink) : String :=
  sink.uri.text ++ " (table " ++ sink.table ++ ")"

/-- The kind of the sink. -/
def name (_ : QuestDbSink) : String := "questdb"

/-- Where the records go, to tell destinations apart in the state file. -/
def key (sink : QuestDbSink) : String := sink.name ++ " " ++ sink.destination

/-- How many records a batch has at most. -/
def batchSize (_ : QuestDbSink) : ℕ := 1000

/-- The records of a refused batch, one by one. A record the server refuses goes as a minimal
line. `post n body` is the answer to request `n` of the call. -/
def sendEach (post : ℕ → Body → PostResult) (n : ℕ) : List StoredRecord → Except String Unit
  | [] => .ok ()
  | record :: records =>
    match post n (.lines [record]) with
    | .error e => .error e
    | .ok none => sendEach post (n + 1) records
    | .ok (some (_, text)) =>
      match post (n + 1) (.minimal record text) with
      | .error e => .error e
      | .ok none => sendEach post (n + 2) records
      | .ok (some (status, text)) =>
        .error ("QuestDB rejected record " ++ toString record.seq ++ " (" ++ status.text ++ "): " ++
          text)

/-- Sends a batch. -/
def send (post : ℕ → Body → PostResult) (records : List StoredRecord) : Except String Unit :=
  match post 0 (.lines records) with
  | .error e => .error e
  | .ok none => .ok ()
  | .ok (some (status, text)) =>
    if status.code ≠ 400 then .error ("QuestDB answered " ++ status.text ++ ": " ++ text)
    else sendEach post 1 records

/-! ## The name of a destination -/

/-- A text is cut in one way at its first blank. -/
theorem append_blank_inj {l₁ l₂ m₁ m₂ : List Char} (h₁ : ' ' ∉ l₁) (h₂ : ' ' ∉ l₂)
    (h : l₁ ++ ' ' :: m₁ = l₂ ++ ' ' :: m₂) : l₁ = l₂ ∧ m₁ = m₂ := by
  induction l₁ generalizing l₂ with
  | nil =>
    cases l₂ with
    | nil => simpa using h
    | cons b l₂ =>
      simp only [List.nil_append, List.cons_append, List.cons.injEq] at h
      simp [← h.1] at h₂
  | cons a l₁ ih =>
    cases l₂ with
    | nil =>
      simp only [List.nil_append, List.cons_append, List.cons.injEq] at h
      simp [h.1] at h₁
    | cons b l₂ =>
      simp only [List.cons_append, List.cons.injEq] at h
      simp only [List.mem_cons, not_or] at h₁ h₂
      obtain ⟨rfl, rfl⟩ := ih h₁.2 h₂.2 h.2
      exact ⟨by rw [h.1], rfl⟩

/-- The name begins with the kind and the address, each up to a blank. -/
theorem key_toList (sink : QuestDbSink) :
    sink.key.toList = "questdb".toList ++ ' ' :: (sink.uri.text.toList ++
      ' ' :: ("(table ".toList ++ (sink.table.toList ++ [')']))) := by
  simp [key, name, destination]

/-- Destinations with one name are one destination: an address ends at the blank behind it. -/
theorem key_injective {a b : QuestDbSink} (h : a.key = b.key) : a = b := by
  have hkind : ' ' ∉ "questdb".toList := by decide
  have hkey : a.key.toList = b.key.toList := congrArg String.toList h
  rw [key_toList, key_toList] at hkey
  obtain ⟨-, hrest⟩ := append_blank_inj hkind hkind hkey
  obtain ⟨huri, htable⟩ := append_blank_inj a.uri.noBlank b.uri.noBlank hrest
  have htable := List.append_cancel_right (List.append_cancel_left htable)
  obtain ⟨⟨ua, ha⟩, ta⟩ := a
  obtain ⟨⟨ub, hb⟩, tb⟩ := b
  obtain rfl : ua = ub := String.toList_inj.1 huri
  obtain rfl : ta = tb := String.toList_inj.1 htable
  rfl

/-- No destination has the name under which older state files keep the position of its kind. -/
theorem key_ne_name (a b : QuestDbSink) : a.key ≠ b.name := by
  intro h
  have hlen := congrArg (fun s : String => s.toList.length) h
  simp only [key_toList, name, List.length_append, List.length_cons] at hlen
  omega

end QuestDbSink

end AuditGateway
