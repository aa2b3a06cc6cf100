import AuditGateway.Web.ExportSettings

set_option relaxedAutoImplicit false
set_option autoImplicit false

/-!
# Refused changes of the export settings

A request that is refused should leave no trace. But the CA that it gives is moved over the one in
force before the section is validated and saved, so that a refusal after that has changed it. And
the file of the configuration can be in place although its directory could not be flushed.

## Main definitions

* `ExportOutcomes`, `attempt` — a request up to its refusal, or to the new section.
* `Unchanged` — nothing that is in force is another.
* `Spares` — requests that write nothing over what is in force.

## Main results

* `unchanged_iff_spares` — a refused request changes nothing just when it is one of these.
* `not_unchanged_tokenAndPassword` — a request with a token and a password replaces the CA.
-/

namespace AuditGateway

/-- How the steps of a request that can fail outside end. -/
structure ExportOutcomes where
  ca : CaWrite
  moved : Bool
  write : FileWrite

namespace ExportChanges

variable (x : ServerCrates) (dataDir : String)

/-- Request number `i` goes on, if it is not answered. -/
def goOn (i : ℕ) (s : ExportChanges) (event : Event) : ExportChanges :=
  (s.step x dataDir (.run i event)).getD s

/-- A request arrives and goes on alone. -/
def go (s : ExportChanges) (isAdmin : Bool) (input : Option QuestDbInput) (events : List Event) :
    ExportChanges :=
  events.foldl (goOn x dataDir s.calls.length)
    { s with calls := s.calls ++ [{ isAdmin := isAdmin, input := input }] }

/-- It goes on until it is refused or its section is in the configuration. -/
def attempt (s : ExportChanges) (isAdmin : Bool) (input : Option QuestDbInput)
    (o : ExportOutcomes) : ExportChanges :=
  s.go x dataDir isAdmin input
    [.read, .writeCa o.ca, .check, .placeCa o.moved, .update o.write]

/-- Request number `i` was answered with an error. -/
def Refused (s : ExportChanges) (i : ℕ) : Prop :=
  ∃ call e, s.calls[i]? = some call ∧ call.stage = .done (.error e)

/-- The configuration in force names this CA file. -/
def InForce (s : ExportChanges) (path : String) : Prop :=
  ∃ q, s.memory = some q ∧ q.caFile = some path

/-- What is in force is as it was. -/
structure Unchanged (s t : ExportChanges) : Prop where
  memory : t.memory = s.memory
  file : t.file = s.file
  ca (path : String) (h : s.InForce path) : t.files path = s.files path
  tasks : t.tasks = s.tasks

/-- The section of a request stands the checks before its CA is moved. -/
def Passes (s : ExportChanges) (q : QuestDbInput) : Prop :=
  (q.build x dataDir s.memory).precheck = .ok () ∧
    ((s.storeCa dataDir q.pem).sinks x (some (q.build x dataDir s.memory))).isOk

/-- The section that goes into the configuration. -/
def placed (s : ExportChanges) (q : QuestDbInput) : QuestDbSection :=
  { q.build x dataDir s.memory with caFile := q.pem.map fun _ => managedCa dataDir }

/-- A request that is refused writes nothing over what is in force, or only what was there. -/
structure SparesInput (s : ExportChanges) (o : ExportOutcomes) (q : QuestDbInput) : Prop where
  /-- The CA could not be written, and the file it was written to is in force. -/
  unwritten (pem : String) (hpem : q.pem = some pem) (hgood : QuestDbInput.badPem pem = false)
    (left : Option String) (hca : o.ca = .failed left) (hforce : s.InForce (newCa dataDir)) :
    s.files (newCa dataDir) = left
  /-- The CA was written and not moved, and the file it was written to is in force. -/
  unmoved (pem : String) (hpem : q.pem = some pem) (hgood : QuestDbInput.badPem pem = false)
    (hca : o.ca = .ok) (hstop : ¬(s.Passes x dataDir q ∧ o.moved))
    (hforce : s.InForce (newCa dataDir)) : s.files (newCa dataDir) = some (pem ++ "\n")
  /-- The CA was moved, and then the section was not valid or could not be saved. -/
  moved (pem : String) (hpem : q.pem = some pem) (hgood : QuestDbInput.badPem pem = false)
    (hca : o.ca = .ok) (hpasses : s.Passes x dataDir q) (hmoved : o.moved)
    (hrefused : (s.placed x dataDir q).validate ≠ .ok () ∨ o.write ≠ .ok) :
    (s.InForce (managedCa dataDir) → s.files (managedCa dataDir) = some (pem ++ "\n")) ∧
      (s.InForce (newCa dataDir) → s.files (newCa dataDir) = none)
  /-- The configuration is in its place, but not flushed. -/
  unsynced (hca : ∀ pem, q.pem = some pem → QuestDbInput.badPem pem = false ∧ o.ca = .ok ∧ o.moved)
    (hpasses : s.Passes x dataDir q) (hvalid : (s.placed x dataDir q).validate = .ok ())
    (hwrite : o.write = .unsynced) : s.file = some (s.placed x dataDir q)

/-- A request spares what is in force if it is not an administrator's, or writes nothing over it. -/
def Spares (s : ExportChanges) (o : ExportOutcomes) (isAdmin : Bool) :
    Option QuestDbInput → Prop
  | none => isAdmin → o.write = .unsynced → s.file = none
  | some q => isAdmin → s.SparesInput x dataDir o q

variable {x dataDir} {s t : ExportChanges} {i : ℕ} {isAdmin : Bool} {input : Option QuestDbInput}

/-! ### The stages of one request -/

/-- A request has come to a stage, and this is what the files hold then. -/
structure Reached (s t : ExportChanges) (i : ℕ) (isAdmin : Bool) (input : Option QuestDbInput)
    (stage : ExportStage) (files : String → Option String) (file : Option QuestDbSection) :
    Prop where
  call : t.calls[i]? = some ⟨isAdmin, input, stage⟩
  memory : t.memory = s.memory
  tasks : t.tasks = s.tasks
  files : t.files = files
  file : t.file = file

section Stages

variable {stage stage' : ExportStage} {files files' : String → Option String}
  {file file' : Option QuestDbSection}

/-- An event of a call that is on its way runs the call. -/
lemma goOn_eq (h : Reached s t i isAdmin input stage files file) (event : Event) :
    goOn x dataDir i t event =
      (t.runCall x dataDir i ⟨isAdmin, input, stage⟩ event stage).getD t := by
  simp [goOn, step, h.call]

/-- A stage that is come to with the same or other files. -/
lemma Reached.put (h : Reached s t i isAdmin input stage files file) {t' : ExportChanges}
    (hcalls : t'.calls = t.calls) (hmemory : t'.memory = t.memory) (htasks : t'.tasks = t.tasks)
    (hfiles : t'.files = files') (hfile : t'.file = file') :
    Reached s (t'.put i ⟨isAdmin, input, stage⟩ stage') i isAdmin input stage' files' file' where
  call := by simp [ExportChanges.put, hcalls, List.getElem?_set_self', h.call]
  memory := hmemory.trans h.memory
  tasks := htasks.trans h.tasks
  files := hfiles
  file := hfile

/-- A stage that is come to with the files as they are. -/
lemma Reached.put_same (h : Reached s t i isAdmin input stage files file) :
    Reached s (t.put i ⟨isAdmin, input, stage⟩ stage') i isAdmin input stage' files file :=
  h.put rfl rfl rfl h.files h.file

/-- A request that is answered goes on no more. -/
lemma Reached.done {result : Except ExportRefusal Unit}
    (h : Reached s t i isAdmin input (.done result) files file) (event : Event) :
    Reached s (goOn x dataDir i t event) i isAdmin input (.done result) files file := by
  have hstop : t.runCall x dataDir i ⟨isAdmin, input, .done result⟩ event (.done result) =
      none := by
    cases event <;> rfl
  rwa [goOn_eq h, hstop, Option.getD_none]

/-- A call that is done stays done. -/
lemma Reached.done_foldl {result : Except ExportRefusal Unit} (events : List Event)
    (h : Reached s t i isAdmin input (.done result) files file) :
    Reached s (events.foldl (goOn x dataDir i) t) i isAdmin input (.done result) files file := by
  induction events generalizing t with
  | nil => exact h
  | cons event events ih => exact ih (h.done event)

/-- An administrator's call reads the configuration. -/
lemma Reached.read (h : Reached s t i true input .arrived files file) :
    Reached s (goOn x dataDir i t .read) i true input (.read s.memory) files file := by
  rw [goOn_eq h]
  simp only [runCall, if_true, Option.getD_some, h.memory]
  exact h.put_same

/-- Anyone else's call is refused. -/
lemma Reached.read_refused (h : Reached s t i false input .arrived files file) :
    Reached s (goOn x dataDir i t .read) i false input (.done (.error .notAdmin)) files file := by
  rw [goOn_eq h]
  simp only [runCall, Bool.false_eq_true, if_false, Option.getD_some]
  exact h.put_same

/-- The contents of the files when a CA is written to its first place. -/
def stored (dataDir : String) (files : String → Option String) :
    Option String → String → Option String
  | some pem => Function.update files (newCa dataDir) (some (pem ++ "\n"))
  | none => files

/-- The files behind a CA that was written. -/
lemma storeCa_files (t : ExportChanges) (pem : Option String) :
    (t.storeCa dataDir pem).files = stored dataDir t.files pem := by
  cases pem <;> rfl

/-- A stage that is come to with the CA in its first place. -/
lemma Reached.put_storeCa (h : Reached s t i isAdmin input stage files file)
    (pem : Option String) :
    Reached s ((t.storeCa dataDir pem).put i ⟨isAdmin, input, stage⟩ stage') i isAdmin input stage'
      (stored dataDir files pem) file := by
  have hfiles : (t.storeCa dataDir pem).files = stored dataDir files pem := by
    rw [storeCa_files, h.files]
  cases pem with
  | none => exact h.put rfl rfl rfl hfiles h.file
  | some pem => exact h.put rfl rfl rfl hfiles h.file

section WriteCa

variable {current : Option QuestDbSection} {q : QuestDbInput}

/-- Without a section there is no CA to write. -/
lemma Reached.writeCa_none (h : Reached s t i isAdmin none (.read current) files file)
    (ca : CaWrite) :
    Reached s (goOn x dataDir i t (.writeCa ca)) i isAdmin none (.built none) files file := by
  rw [goOn_eq h]
  exact h.put_same

/-- A CA that is none is refused. -/
lemma Reached.writeCa_badPem (h : Reached s t i isAdmin (some q) (.read current) files file)
    (hbad : q.pem.any QuestDbInput.badPem) (ca : CaWrite) :
    Reached s (goOn x dataDir i t (.writeCa ca)) i isAdmin (some q) (.done (.error .notPem)) files
      file := by
  rw [goOn_eq h]
  simp only [runCall, writeCa, if_pos hbad, Option.getD_some]
  exact h.put_same

/-- A CA that cannot be written is refused. -/
lemma Reached.writeCa_failed (h : Reached s t i isAdmin (some q) (.read current) files file)
    {pem : String} (hpem : q.pem = some pem) (hgood : QuestDbInput.badPem pem = false)
    (left : Option String) :
    Reached s (goOn x dataDir i t (.writeCa (.failed left))) i isAdmin (some q)
      (.done (.error .writeCa)) (Function.update files (newCa dataDir) left) file := by
  have hok : ¬q.pem.any QuestDbInput.badPem := by simp [hpem, hgood]
  rw [goOn_eq h]
  simp only [runCall, writeCa, if_neg hok, Option.getD_some]
  rw [hpem]
  exact h.put rfl rfl rfl (congrArg (Function.update · (newCa dataDir) left) h.files) h.file

/-- The section is built with the CA in its first place, and looked at. -/
lemma Reached.writeCa (h : Reached s t i isAdmin (some q) (.read current) files file)
    (hgood : q.pem.any QuestDbInput.badPem = false) {ca : CaWrite}
    (hca : ∀ pem, q.pem = some pem → ca = .ok) :
    Reached s (goOn x dataDir i t (.writeCa ca)) i isAdmin (some q)
      (match (q.build x dataDir current).precheck with
        | .error e => .done (.error e)
        | .ok () => .built (some (q.build x dataDir current)))
      (stored dataDir files q.pem) file := by
  have hok : ¬q.pem.any QuestDbInput.badPem := by simp [hgood]
  have hwrite : t.writeCa x dataDir i ⟨isAdmin, some q, .read current⟩ current ca =
      match (q.build x dataDir current).precheck with
      | .error e => (t.storeCa dataDir q.pem).refuse i ⟨isAdmin, some q, .read current⟩ e
      | .ok () => (t.storeCa dataDir q.pem).put i ⟨isAdmin, some q, .read current⟩
          (.built (some (q.build x dataDir current))) := by
    simp only [ExportChanges.writeCa, if_neg hok]
    cases hpem : q.pem with
    | none => rfl
    | some pem =>
      obtain rfl := hca pem hpem
      rfl
  rw [goOn_eq h]
  simp only [runCall, Option.getD_some, hwrite]
  split
  · exact h.put_storeCa q.pem
  · exact h.put_storeCa q.pem

end WriteCa

section Place

variable {section_ : Option QuestDbSection}

/-- The checks read the CA that is given from where it was written first. -/
lemma Reached.check (h : Reached s t i isAdmin input (.built section_) files file) :
    Reached s (goOn x dataDir i t .check) i isAdmin input
      (match ({ s with files := files }).sinks x section_ with
        | .error e => .done (.error (.unusable e))
        | .ok _ => .checked section_) files file := by
  have hsinks : t.sinks x section_ = ({ s with files := files }).sinks x section_ := by
    cases section_ <;> simp [sinks, h.files]
  rw [goOn_eq h]
  simp only [runCall, hsinks]
  cases ({ s with files := files }).sinks x section_ with
  | error e => exact h.put_same
  | ok sinks => exact h.put_same

/-- Without a CA nothing is put in its place. -/
lemma Reached.placeCa_kept (h : Reached s t i isAdmin input (.checked section_) files file)
    (hca : section_.bind (·.caFile) = none) (moved : Bool) :
    Reached s (goOn x dataDir i t (.placeCa moved)) i isAdmin input (.placed section_) files
      file := by
  rw [goOn_eq h]
  cases section_ with
  | none => exact h.put_same
  | some q =>
    have hnone : q.caFile = none := hca
    simp only [runCall, placeCa, hnone, Option.getD_some]
    exact h.put_same

variable {q : QuestDbSection} {pem : String}

/-- A CA that cannot be put in its place is refused. -/
lemma Reached.placeCa_refused (h : Reached s t i isAdmin input (.checked (some q)) files file)
    (hca : q.caFile.isSome) :
    Reached s (goOn x dataDir i t (.placeCa false)) i isAdmin input (.done (.error .renameCa)) files
      file := by
  obtain ⟨path, hpath⟩ := Option.isSome_iff_exists.mp hca
  rw [goOn_eq h]
  simp only [runCall, placeCa, hpath, Option.getD_some]
  cases t.files (newCa dataDir) with
  | none => exact h.put_same
  | some pem => exact h.put_same

/-- A CA that was written is put in its place. -/
lemma Reached.placeCa (h : Reached s t i isAdmin input (.checked (some q)) files file)
    (hca : q.caFile.isSome) (hpem : files (newCa dataDir) = some pem) :
    Reached s (goOn x dataDir i t (.placeCa true)) i isAdmin input
      (.placed (some { q with caFile := some (managedCa dataDir) }))
      (Function.update (Function.update files (newCa dataDir) none) (managedCa dataDir) (some pem))
      file := by
  obtain ⟨path, hpath⟩ := Option.isSome_iff_exists.mp hca
  have hthere : t.files (newCa dataDir) = some pem := by rw [h.files, hpem]
  rw [goOn_eq h]
  simp only [runCall, ExportChanges.placeCa, hpath, hthere, Option.getD_some, h.files]
  exact h.put rfl rfl rfl rfl h.file

/-- The last step, with how it ends. -/
lemma Reached.update (h : Reached s t i isAdmin input (.placed section_) files file)
    (write : FileWrite) :
    match (section_.map (·.validate)).getD (.ok ()), write with
    | .error e, _ => Reached s (goOn x dataDir i t (.update write)) i isAdmin input
        (.done (.error e)) files file
    | .ok (), .failed => Reached s (goOn x dataDir i t (.update write)) i isAdmin input
        (.done (.error .writeConfig)) files file
    | .ok (), .unsynced => Reached s (goOn x dataDir i t (.update write)) i isAdmin input
        (.done (.error .writeConfig)) files section_
    | .ok (), .ok => (goOn x dataDir i t (.update write)).calls[i]? =
        some ⟨isAdmin, input, .updated section_⟩ := by
  rw [goOn_eq h]
  simp only [runCall, ExportChanges.update, Option.getD_some]
  cases (section_.map (·.validate)).getD (.ok ()) with
  | error e => exact h.put_same
  | ok u =>
    cases write with
    | failed => exact h.put_same
    | unsynced => exact h.put rfl rfl rfl h.files rfl
    | ok => simp [ExportChanges.put, List.getElem?_set_self', h.call]

end Place

end Stages

/-! ### What a refusal leaves -/

section Ends

variable {files : String → Option String} {file : Option QuestDbSection}

/-- A call that has just arrived. -/
lemma reached_arrived (s : ExportChanges) (isAdmin : Bool) (input : Option QuestDbInput) :
    Reached s { s with calls := s.calls ++ [{ isAdmin := isAdmin, input := input }] } s.calls.length
      isAdmin input .arrived s.files s.file where
  call := by simp
  memory := rfl
  tasks := rfl
  files := rfl
  file := rfl

/-- A refusal changes nothing just when the files are the same. -/
lemma unchanged_refused_iff {e : ExportRefusal}
    (h : Reached s t i isAdmin input (.done (.error e)) files file) :
    (Refused t i → Unchanged s t) ↔
      file = s.file ∧ ∀ path, s.InForce path → files path = s.files path := by
  have hrefused : Refused t i := ⟨_, e, h.call, rfl⟩
  constructor
  · intro hall
    have hsame := hall hrefused
    refine ⟨by rw [← h.file, hsame.file], fun path hpath => ?_⟩
    rw [← h.files, hsame.ca path hpath]
  · rintro ⟨hfile, hfiles⟩ -
    exact ⟨h.memory, h.file.trans hfile, fun path hpath => by rw [h.files, hfiles path hpath],
      h.tasks⟩

/-- A call that has written the configuration was not refused. -/
lemma not_refused_updated {section_ : Option QuestDbSection}
    (h : t.calls[i]? = some ⟨isAdmin, input, .updated section_⟩) : ¬Refused t i := by
  rintro ⟨call, e, hcall, hstage⟩
  rw [h] at hcall
  cases hcall
  cases hstage

/-- What the last step can leave. -/
lemma unchanged_update_iff {section_ : Option QuestDbSection}
    (h : Reached s t i isAdmin input (.placed section_) files s.file) (write : FileWrite) :
    (Refused (goOn x dataDir i t (.update write)) i →
        Unchanged s (goOn x dataDir i t (.update write))) ↔
      (((section_.map (·.validate)).getD (.ok ()) ≠ .ok () ∨ write ≠ .ok) →
          ∀ path, s.InForce path → files path = s.files path) ∧
        ((section_.map (·.validate)).getD (.ok ()) = .ok () → write = .unsynced →
          s.file = section_) := by
  have hend := @Reached.update x dataDir s t i isAdmin input files s.file section_ h write
  cases hvalid : (section_.map (·.validate)).getD (.ok ()) with
  | error e =>
    rw [hvalid] at hend
    simp [unchanged_refused_iff hend]
  | ok u =>
    rw [hvalid] at hend
    cases write with
    | failed => simp [unchanged_refused_iff hend]
    | unsynced => simp [unchanged_refused_iff hend, and_comm, eq_comm]
    | ok => simp [not_refused_updated hend]

end Ends

section Attempt

variable {q : QuestDbInput} {o : ExportOutcomes}

/-- The new CA has a name of its own. -/
lemma newCa_ne_managedCa : newCa dataDir ≠ managedCa dataDir := by
  intro h
  have hlength := congrArg (·.toList.length) h
  simp [newCa, managedCa] at hlength

/-- The CA in its first place is read where the checks look for it, and files that are not the two
of a CA are as they were. -/
lemma stored_newCa (files : String → Option String) (pem : String) :
    stored dataDir files (some pem) (newCa dataDir) = some (pem ++ "\n") :=
  Function.update_self ..

/-- Only the first place of the CA is written before it is moved. -/
lemma stored_agrees_iff (s : ExportChanges) (pem : Option String) :
    (∀ path, s.InForce path → stored dataDir s.files pem path = s.files path) ↔
      ∀ text, pem = some text → s.InForce (newCa dataDir) →
        s.files (newCa dataDir) = some (text ++ "\n") := by
  cases pem with
  | none => simp [stored]
  | some text =>
    constructor
    · rintro h _ ⟨rfl⟩ hforce
      rw [← h _ hforce, stored_newCa]
    · intro h path hforce
      by_cases hpath : path = newCa dataDir
      · subst hpath
        rw [stored_newCa, h text rfl hforce]
      · exact Function.update_of_ne hpath ..

/-- The two places of the CA are written when it is moved. -/
lemma moved_agrees_iff (s : ExportChanges) (files : String → Option String)
    (hfiles : ∀ path, path ≠ newCa dataDir → files path = s.files path) (pem : String) :
    (∀ path, s.InForce path →
        Function.update (Function.update files (newCa dataDir) none) (managedCa dataDir) (some pem)
          path = s.files path) ↔
      (s.InForce (managedCa dataDir) → s.files (managedCa dataDir) = some pem) ∧
        (s.InForce (newCa dataDir) → s.files (newCa dataDir) = none) := by
  have hne : newCa dataDir ≠ managedCa dataDir := newCa_ne_managedCa
  constructor
  · intro h
    refine ⟨fun hforce => ?_, fun hforce => ?_⟩
    · rw [← h _ hforce, Function.update_self]
    · rw [← h _ hforce, Function.update_of_ne hne, Function.update_self]
  · rintro ⟨hmanaged, hnew⟩ path hforce
    by_cases hpath : path = managedCa dataDir
    · subst hpath
      rw [Function.update_self, hmanaged hforce]
    · rw [Function.update_of_ne hpath]
      by_cases hpath' : path = newCa dataDir
      · subst hpath'
        rw [Function.update_self, hnew hforce]
      · rw [Function.update_of_ne hpath', hfiles path hpath']

variable (x dataDir) in
/-- A call that has read the configuration. -/
lemma reached_read (s : ExportChanges) (input : Option QuestDbInput) :
    Reached s (s.go x dataDir true input [.read]) s.calls.length true input (.read s.memory) s.files
      s.file :=
  (reached_arrived s true input).read

variable (x dataDir) in
/-- A request that turns the export off. -/
lemma unchanged_attempt_none (s : ExportChanges) (o : ExportOutcomes) :
    (Refused (s.attempt x dataDir true none o) s.calls.length →
        Unchanged s (s.attempt x dataDir true none o)) ↔ (o.write = .unsynced → s.file = none) := by
  have hbuilt : Reached s (s.go x dataDir true none [.read, .writeCa o.ca]) s.calls.length true none
      (.built none) s.files s.file := (reached_read x dataDir s none).writeCa_none o.ca
  have hchecked : Reached s (s.go x dataDir true none [.read, .writeCa o.ca, .check])
      s.calls.length true none (.checked none) s.files s.file := hbuilt.check
  have hplaced : Reached s
      (s.go x dataDir true none [.read, .writeCa o.ca, .check, .placeCa o.moved])
      s.calls.length true none (.placed none) s.files s.file := hchecked.placeCa_kept rfl o.moved
  refine (unchanged_update_iff hplaced o.write).trans ?_
  simp

/-- A section is built with the first place of the CA, or without one. -/
lemma caFile_build (s : ExportChanges) (q : QuestDbInput) :
    (q.build x dataDir s.memory).caFile = q.pem.map fun _ => newCa dataDir := rfl

variable (x dataDir) in
/-- The last steps of a request that gives a CA which can be moved, or none. -/
lemma unchanged_attempt_placed (s : ExportChanges) (o : ExportOutcomes) (q : QuestDbInput)
    (hchecked : Reached s (s.go x dataDir true (some q) [.read, .writeCa o.ca, .check])
      s.calls.length true (some q) (.checked (some (q.build x dataDir s.memory)))
      (stored dataDir s.files q.pem) s.file)
    (hmoved : ∀ pem, q.pem = some pem → o.moved) :
    (Refused (s.attempt x dataDir true (some q) o) s.calls.length →
        Unchanged s (s.attempt x dataDir true (some q) o)) ↔
      (((s.placed x dataDir q).validate ≠ .ok () ∨ o.write ≠ .ok) → ∀ pem, q.pem = some pem →
        (s.InForce (managedCa dataDir) → s.files (managedCa dataDir) = some (pem ++ "\n")) ∧
          (s.InForce (newCa dataDir) → s.files (newCa dataDir) = none)) ∧
      ((s.placed x dataDir q).validate = .ok () → o.write = .unsynced →
        s.file = some (s.placed x dataDir q)) := by
  cases hpem : q.pem with
  | none =>
    have hsection : s.placed x dataDir q = q.build x dataDir s.memory := by
      simp [placed, QuestDbInput.build, hpem]
    have hplaced : Reached s
        (s.go x dataDir true (some q) [.read, .writeCa o.ca, .check, .placeCa o.moved])
        s.calls.length true (some q) (.placed (some (s.placed x dataDir q))) s.files s.file := by
      rw [hpem] at hchecked
      rw [hsection]
      refine hchecked.placeCa_kept ?_ o.moved
      simp [caFile_build, hpem]
    refine (unchanged_update_iff hplaced o.write).trans ?_
    simp
  | some pem =>
    rw [hpem] at hchecked
    have hmoved' : o.moved = true := hmoved pem hpem
    have hplaced : Reached s
        (s.go x dataDir true (some q) [.read, .writeCa o.ca, .check, .placeCa o.moved])
        s.calls.length true (some q) (.placed (some (s.placed x dataDir q)))
        (Function.update (Function.update (stored dataDir s.files (some pem)) (newCa dataDir) none)
          (managedCa dataDir) (some (pem ++ "\n"))) s.file := by
      have hsection : s.placed x dataDir q =
          { q.build x dataDir s.memory with caFile := some (managedCa dataDir) } := by
        simp [placed, hpem]
      rw [hsection, hmoved']
      exact hchecked.placeCa (by simp [caFile_build, hpem]) (stored_newCa ..)
    refine (unchanged_update_iff hplaced o.write).trans ?_
    rw [moved_agrees_iff s _ (fun path hpath => Function.update_of_ne hpath ..)]
    simp

variable (x dataDir) in
/-- A request whose section does not stand the checks has written the CA to its first place. -/
lemma unchanged_attempt_stopped (s : ExportChanges) (o : ExportOutcomes) (q : QuestDbInput)
    {e : ExportRefusal}
    (hend : Reached s (s.attempt x dataDir true (some q) o) s.calls.length true (some q)
      (.done (.error e)) (stored dataDir s.files q.pem) s.file) :
    (Refused (s.attempt x dataDir true (some q) o) s.calls.length →
        Unchanged s (s.attempt x dataDir true (some q) o)) ↔
      ∀ pem, q.pem = some pem → s.InForce (newCa dataDir) →
        s.files (newCa dataDir) = some (pem ++ "\n") := by
  rw [unchanged_refused_iff hend, stored_agrees_iff]
  exact and_iff_right rfl

/-- The sinks see the files that were written. -/
lemma sinks_stored (s : ExportChanges) (pem : Option String) (section_ : Option QuestDbSection) :
    ({ s with files := stored dataDir s.files pem }).sinks x section_ =
      (s.storeCa dataDir pem).sinks x section_ := by
  cases pem <;> cases section_ <;> rfl

/-- Either the CA is moved, if one is given, or the request is refused before. -/
lemma reached_checked (s : ExportChanges) (o : ExportOutcomes) (q : QuestDbInput)
    (hgood : q.pem.any QuestDbInput.badPem = false) (hca : ∀ pem, q.pem = some pem → o.ca = .ok) :
    (s.Passes x dataDir q ∧ Reached s (s.go x dataDir true (some q) [.read, .writeCa o.ca, .check])
        s.calls.length true (some q) (.checked (some (q.build x dataDir s.memory)))
        (stored dataDir s.files q.pem) s.file) ∨
      ¬s.Passes x dataDir q ∧ ∃ e, Reached s (s.attempt x dataDir true (some q) o) s.calls.length
        true (some q) (.done (.error e)) (stored dataDir s.files q.pem) s.file := by
  have hwritten :
      Reached s (s.go x dataDir true (some q) [.read, .writeCa o.ca]) s.calls.length true
      (some q) (match (q.build x dataDir s.memory).precheck with
        | .error e => .done (.error e)
        | .ok () => .built (some (q.build x dataDir s.memory)))
      (stored dataDir s.files q.pem) s.file :=
    (reached_read x dataDir s (some q)).writeCa hgood hca
  cases hpre : (q.build x dataDir s.memory).precheck with
  | error e =>
    rw [hpre] at hwritten
    refine .inr ⟨fun hpasses => ?_, e, ?_⟩
    · cases hpre.symm.trans hpasses.1
    · exact hwritten.done_foldl [.check, .placeCa o.moved, .update o.write]
  | ok u =>
    rw [hpre] at hwritten
    have hchecked : Reached s (s.go x dataDir true (some q) [.read, .writeCa o.ca, .check])
        s.calls.length true (some q)
        (match (s.storeCa dataDir q.pem).sinks x (some (q.build x dataDir s.memory)) with
          | .error e => .done (.error (.unusable e))
          | .ok _ => .checked (some (q.build x dataDir s.memory)))
        (stored dataDir s.files q.pem) s.file := by
      rw [← sinks_stored]
      exact hwritten.check
    cases hsinks : (s.storeCa dataDir q.pem).sinks x (some (q.build x dataDir s.memory)) with
    | error e =>
      rw [hsinks] at hchecked
      refine .inr ⟨fun hpasses => ?_, .unusable e, ?_⟩
      · have hok := hpasses.2
        rw [hsinks] at hok
        cases hok
      · exact hchecked.done_foldl [.placeCa o.moved, .update o.write]
    | ok sinks =>
      rw [hsinks] at hchecked
      exact .inl ⟨⟨hpre, by rw [hsinks]; rfl⟩, hchecked⟩

/-- A request that is refused with its CA in the first place. -/
lemma sparesInput_of_stopped (hgood : ∀ pem, q.pem = some pem → QuestDbInput.badPem pem = false)
    (hca : ∀ pem, q.pem = some pem → o.ca = .ok)
    (hstop : ¬(s.Passes x dataDir q ∧ ∀ pem, q.pem = some pem → o.moved)) :
    (∀ pem, q.pem = some pem → s.InForce (newCa dataDir) →
        s.files (newCa dataDir) = some (pem ++ "\n")) ↔ s.SparesInput x dataDir o q := by
  constructor
  · intro h
    refine ⟨fun pem hpem _ left hfailed => ?_, fun pem hpem _ _ _ => h pem hpem,
      fun pem hpem _ _ hpasses hmoved => ?_, fun hall hpasses => ?_⟩
    · cases (hca pem hpem).symm.trans hfailed
    · exact absurd ⟨hpasses, fun _ _ => hmoved⟩ hstop
    · exact absurd ⟨hpasses, fun pem hpem => (hall pem hpem).2.2⟩ hstop
  · intro h pem hpem
    refine h.unmoved pem hpem (hgood pem hpem) (hca pem hpem) fun hpasses => hstop ?_
    exact ⟨hpasses.1, fun _ _ => hpasses.2⟩

/-- A request whose CA is moved, if it gives one. -/
lemma sparesInput_of_placed (hgood : ∀ pem, q.pem = some pem → QuestDbInput.badPem pem = false)
    (hca : ∀ pem, q.pem = some pem → o.ca = .ok) (hpasses : s.Passes x dataDir q)
    (hmoved : ∀ pem, q.pem = some pem → o.moved) :
    ((((s.placed x dataDir q).validate ≠ .ok () ∨ o.write ≠ .ok) → ∀ pem, q.pem = some pem →
        (s.InForce (managedCa dataDir) → s.files (managedCa dataDir) = some (pem ++ "\n")) ∧
          (s.InForce (newCa dataDir) → s.files (newCa dataDir) = none)) ∧
      ((s.placed x dataDir q).validate = .ok () → o.write = .unsynced →
        s.file = some (s.placed x dataDir q))) ↔ s.SparesInput x dataDir o q := by
  constructor
  · rintro ⟨hplaces, hfile⟩
    refine ⟨fun pem hpem _ left hfailed => ?_, fun pem hpem _ _ hstop => ?_,
      fun pem hpem _ _ _ _ hrefused => hplaces hrefused pem hpem, fun _ _ => hfile⟩
    · cases (hca pem hpem).symm.trans hfailed
    · exact absurd ⟨hpasses, hmoved pem hpem⟩ hstop
  · intro h
    refine ⟨fun hrefused pem hpem => ?_, h.unsynced ?_ hpasses⟩
    · exact h.moved pem hpem (hgood pem hpem) (hca pem hpem) hpasses (hmoved pem hpem) hrefused
    · exact fun pem hpem => ⟨hgood pem hpem, hca pem hpem, hmoved pem hpem⟩

/-- A request whose CA could not be written. -/
lemma sparesInput_of_unwritten {pem : String} {left : Option String} (hpem : q.pem = some pem)
    (hgood : QuestDbInput.badPem pem = false) (hleft : o.ca = .failed left) :
    (s.file = s.file ∧ ∀ path, s.InForce path →
        Function.update s.files (newCa dataDir) left path = s.files path) ↔
      s.SparesInput x dataDir o q := by
  have hnot : o.ca ≠ .ok := by simp [hleft]
  constructor
  · rintro ⟨-, h⟩
    refine ⟨fun pem' _ _ left' hleft' hforce => ?_, fun _ _ _ hca => absurd hca hnot,
      fun _ _ _ hca => absurd hca hnot, fun hall => absurd (hall pem hpem).2.1 hnot⟩
    obtain rfl : left = left' := by
      rw [hleft] at hleft'
      cases hleft'
      rfl
    rw [← h _ hforce, Function.update_self]
  · intro h
    refine ⟨rfl, fun path hforce => ?_⟩
    by_cases hpath : path = newCa dataDir
    · subst hpath
      rw [Function.update_self, h.unwritten pem hpem hgood left hleft hforce]
    · exact Function.update_of_ne hpath ..

variable (x dataDir) in
/-- A request that gives a section. -/
lemma unchanged_attempt_some (s : ExportChanges) (o : ExportOutcomes) (q : QuestDbInput) :
    (Refused (s.attempt x dataDir true (some q) o) s.calls.length →
        Unchanged s (s.attempt x dataDir true (some q) o)) ↔ s.SparesInput x dataDir o q := by
  cases hbad : q.pem.any QuestDbInput.badPem with
  | true =>
    -- What is given is no CA: nothing is written.
    obtain ⟨pem, hpem, hno⟩ := Option.any_eq_true _ _ |>.mp hbad
    have hwritten : Reached s (s.go x dataDir true (some q) [.read, .writeCa o.ca]) s.calls.length
        true (some q) (.done (.error .notPem)) s.files s.file :=
      (reached_read x dataDir s (some q)).writeCa_badPem hbad o.ca
    have hend : Reached s (s.attempt x dataDir true (some q) o) s.calls.length true (some q)
        (.done (.error .notPem)) s.files s.file :=
      hwritten.done_foldl [.check, .placeCa o.moved, .update o.write]
    have hnot : ∀ pem', q.pem = some pem' → QuestDbInput.badPem pem' ≠ false := by
      intro pem' hpem'
      obtain rfl := Option.some.inj (hpem.symm.trans hpem')
      simp [hno]
    rw [unchanged_refused_iff hend]
    refine iff_of_true ⟨rfl, fun _ _ => rfl⟩ ⟨?_, ?_, ?_, ?_⟩
    · exact fun pem' hpem' hgood => absurd hgood (hnot pem' hpem')
    · exact fun pem' hpem' hgood => absurd hgood (hnot pem' hpem')
    · exact fun pem' hpem' hgood => absurd hgood (hnot pem' hpem')
    · exact fun hca => absurd (hca pem hpem).1 (hnot pem hpem)
  | false =>
    have hgood : ∀ pem, q.pem = some pem → QuestDbInput.badPem pem = false := by
      intro pem hpem
      simpa [hpem] using hbad
    by_cases hca : ∀ pem, q.pem = some pem → o.ca = .ok
    · obtain ⟨hpasses, hchecked⟩ | ⟨hnot, e, hend⟩ := reached_checked s o q hbad hca
      · by_cases hmoved : ∀ pem, q.pem = some pem → o.moved
        · rw [unchanged_attempt_placed x dataDir s o q hchecked hmoved]
          exact sparesInput_of_placed hgood hca hpasses hmoved
        · -- The CA is left in its first place.
          have hfalse : o.moved = false := by
            by_contra h
            exact hmoved fun _ _ => by simpa using h
          obtain ⟨pem, hpem⟩ : ∃ pem, q.pem = some pem := by
            by_contra h
            exact hmoved fun pem hpem => absurd ⟨pem, hpem⟩ h
          have hplaced : Reached s
              (s.go x dataDir true (some q) [.read, .writeCa o.ca, .check, .placeCa o.moved])
              s.calls.length true (some q) (.done (.error .renameCa))
              (stored dataDir s.files q.pem) s.file := by
            rw [hfalse]
            exact hchecked.placeCa_refused (by simp [caFile_build, hpem])
          have hend : Reached s (s.attempt x dataDir true (some q) o) s.calls.length true (some q)
              (.done (.error .renameCa)) (stored dataDir s.files q.pem) s.file :=
            hplaced.done_foldl [.update o.write]
          rw [unchanged_attempt_stopped x dataDir s o q hend]
          refine sparesInput_of_stopped hgood hca fun h => ?_
          simpa [hfalse] using h.2 pem hpem
      · rw [unchanged_attempt_stopped x dataDir s o q hend]
        exact sparesInput_of_stopped hgood hca fun h => hnot h.1
    · -- The CA could not be written.
      obtain ⟨pem, hpem, left, hleft⟩ : ∃ pem, q.pem = some pem ∧ ∃ left, o.ca = .failed left := by
        cases hwrite : o.ca with
        | ok => exact absurd (fun _ _ => hwrite) hca
        | failed left =>
          by_contra h
          exact hca fun pem hpem => absurd ⟨pem, hpem, left, rfl⟩ h
      have hwritten : Reached s (s.go x dataDir true (some q) [.read, .writeCa o.ca])
          s.calls.length true (some q) (.done (.error .writeCa))
          (Function.update s.files (newCa dataDir) left) s.file := by
        rw [hleft]
        exact (reached_read x dataDir s (some q)).writeCa_failed hpem (hgood pem hpem) left
      have hend : Reached s (s.attempt x dataDir true (some q) o) s.calls.length true (some q)
          (.done (.error .writeCa)) (Function.update s.files (newCa dataDir) left) s.file :=
        hwritten.done_foldl [.check, .placeCa o.moved, .update o.write]
      rw [unchanged_refused_iff hend]
      exact sparesInput_of_unwritten hpem (hgood pem hpem) hleft

end Attempt

/-- **What a refused request leaves.** From every configuration and for every input and way in which
the steps end, a request that is refused before its section is in the configuration leaves what is
in force as it was if and only if it spares it.

**Proof sketch.** The request is followed through its stages with the contents of the files
(`Reached`). Each way in which it can end leaves one or both places of the CA written, or the file
of the configuration; the condition names just these. -/
theorem unchanged_iff_spares (x : ServerCrates) (dataDir : String) (s : ExportChanges)
    (isAdmin : Bool) (input : Option QuestDbInput) (o : ExportOutcomes) :
    (Refused (s.attempt x dataDir isAdmin input o) s.calls.length →
        Unchanged s (s.attempt x dataDir isAdmin input o)) ↔
      s.Spares x dataDir o isAdmin input := by
  cases isAdmin with
  | false =>
    have hread : Reached s (s.go x dataDir false input [.read]) s.calls.length false input
        (.done (.error .notAdmin)) s.files s.file := (reached_arrived s false input).read_refused
    have hend : Reached s (s.attempt x dataDir false input o) s.calls.length false input
        (.done (.error .notAdmin)) s.files s.file :=
      hread.done_foldl [.writeCa o.ca, .check, .placeCa o.moved, .update o.write]
    rw [unchanged_refused_iff hend]
    refine iff_of_true ⟨rfl, fun _ _ => rfl⟩ ?_
    cases input <;> exact nofun
  | true =>
    cases input with
    | none =>
      rw [unchanged_attempt_none x dataDir s o]
      exact ⟨fun h _ => h, fun h => h rfl⟩
    | some q =>
      rw [unchanged_attempt_some x dataDir s o q]
      exact ⟨fun h _ => h, fun h => h rfl⟩

/-! ### Certificates as text -/

/-- A text between two characters that are no blanks is not cut. -/
lemma trim_eq_self {text : String} {first last : Char} {l : List Char}
    (htext : text.toList = first :: (l ++ [last])) (hfirst : ¬ isWhitespace first)
    (hlast : ¬ isWhitespace last) : trim text = text := by
  rw [trim, htext, List.dropWhile_cons_of_neg hfirst, ← List.cons_append,
      List.reverse_concat, List.dropWhile_cons_of_neg hlast, ← List.reverse_concat,
      List.reverse_reverse, List.cons_append, ← htext, String.ofList_toList]

/-- A text holds what it begins with. -/
lemma containsText_append (text rest : String) : containsText (text ++ rest) text = true := by
  refine List.any_eq_true.2 ⟨_, List.mem_tails _ _ |>.2 List.suffix_rfl, ?_⟩
  rw [List.isPrefixOf_iff_prefix, String.toList_append]
  exact List.prefix_append _ _

/-- The body of a PEM ends with a hyphen. -/
lemma exists_toList_pemBody (lines : List String) : ∃ l, (pemBody lines).toList = l ++ ['-'] := by
  induction lines with
  | nil => exact ⟨"-----END CERTIFICATE----".toList, by decide +kernel⟩
  | cons line lines ih =>
    obtain ⟨l, hl⟩ := ih
    exact ⟨(line ++ "\n").toList ++ l, by rw [pemBody, String.toList_append, hl, List.append_assoc]⟩

/-- There are no blanks around a certificate. -/
lemma nonEmpty_pemText (lines : List String) : nonEmpty (some (pemText lines)) = pemText lines := by
  obtain ⟨l, hl⟩ := exists_toList_pemBody lines
  obtain ⟨head, hhead⟩ : ∃ head, "-----BEGIN CERTIFICATE-----\n".toList = '-' :: head :=
    ⟨"----BEGIN CERTIFICATE-----\n".toList, by decide +kernel⟩
  have htext : (pemText lines).toList = '-' :: ((head ++ l) ++ ['-']) := by
    unfold pemText
    generalize "-----BEGIN CERTIFICATE-----\n" = first at hhead
    rw [String.toList_append, hhead, hl, List.cons_append, List.append_assoc]
  have hne : pemText lines ≠ "" := by
    intro hnil
    rw [hnil] at htext
    cases htext
  simp [nonEmpty, trim_eq_self htext (by decide) (by decide), hne]

/-- The size of the body of a PEM. -/
lemma utf8ByteSize_pemBody (lines : List String) :
    (pemBody lines).utf8ByteSize = (lines.map fun line => line.utf8ByteSize + 1).sum + 25 := by
  induction lines with
  | nil => decide +kernel
  | cons line lines ih =>
    have hbreak : "\n".utf8ByteSize = 1 := by decide +kernel
    rw [pemBody, String.utf8ByteSize_append, String.utf8ByteSize_append, ih, hbreak,
      List.map_cons, List.sum_cons]
    omega

/-- The size of a PEM. -/
lemma utf8ByteSize_pemText (lines : List String) :
    (pemText lines).utf8ByteSize = (lines.map fun line => line.utf8ByteSize + 1).sum + 53 := by
  have hfirst : "-----BEGIN CERTIFICATE-----\n".utf8ByteSize = 28 := by decide +kernel
  unfold pemText
  generalize "-----BEGIN CERTIFICATE-----\n" = first at hfirst
  rw [String.utf8ByteSize_append, utf8ByteSize_pemBody, hfirst]
  omega

/-- A certificate that is not too long may be given. -/
lemma badPem_pemText {lines : List String} (h : (pemText lines).utf8ByteSize ≤ maxPem) :
    QuestDbInput.badPem (pemText lines) = false := by
  have hfirst : "-----BEGIN CERTIFICATE-----\n" = "-----BEGIN CERTIFICATE-----" ++ "\n" := by
    decide +kernel
  have htext : pemText lines = "-----BEGIN CERTIFICATE-----" ++ ("\n" ++ pemBody lines) :=
    (congrArg (· ++ pemBody lines) hfirst).trans String.append_assoc
  have hcontains : containsText (pemText lines) "-----BEGIN CERTIFICATE-----" = true :=
    htext ▸ containsText_append _ _
  simp [QuestDbInput.badPem, hcontains, h]

/-! ### A request that replaces the CA -/

/-- The CA is read where it was written first. -/
lemma files_storeCa (s : ExportChanges) (dataDir pem : String) :
    (s.storeCa dataDir (some pem)).files (newCa dataDir) = some (pem ++ "\n") :=
  Function.update_self ..

/-- The client is built from the CA that the path leads to. -/
lemma clientConfig_http {x : ServerCrates} {files : String → Option String} {path pem : String}
    (h : files path = some pem) :
    (http x files).clientConfig (some path) = x.clientConfig (some pem) := by
  simp only [http, h]

/-- A section whose URL can be read and whose CA can be used is exported to. -/
lemma isOk_sinks {x : ServerCrates} {s : ExportChanges} {q : QuestDbSection}
    (huri : (x.parseUri (trimSlashes q.url ++ "/write?precision=n")).isSome)
    (hca : (http x s.files).clientConfig q.caFile = .ok ()) : (s.sinks x (some q)).isOk := by
  obtain ⟨uri, huri⟩ := Option.isSome_iff_exists.1 huri
  have hnew : ∃ sink, QuestDbSink.new (http x s.files) q.toQuestDbConfig = .ok sink := by
    simp only [QuestDbSink.new, show (http x s.files).parseUri = x.parseUri from rfl, huri]
    split
    · exact ⟨_, by rw [hca]; rfl⟩
    · exact ⟨_, rfl⟩
  obtain ⟨sink, hnew⟩ := hnew
  rw [sinks, hnew]
  rfl

/-- The export runs with a CA given in the settings. -/
def privateQuestdb : QuestDbSection where
  url := "https://questdb:9000"
  table := "audit"
  token := "secret"
  caFile := some (managedCa "data")

/-- Another CA is given, and both a token and a user. -/
def twoCredentials : QuestDbInput where
  url := "https://questdb:9000"
  table := "audit"
  username := "gateway"
  caPem := otherCa
  intervalSecs := 5

/-- The token is kept, so that there is a token beside the user: the section is not valid, but the
CA in force is the one of the request by then. -/
theorem not_unchanged_tokenAndPassword :
    ¬ ∀ (x : ServerCrates) (dataDir : String) (s : ExportChanges) (isAdmin : Bool)
      (input : Option QuestDbInput) (o : ExportOutcomes),
      Refused (s.attempt x dataDir isAdmin input o) s.calls.length →
        Unchanged s (s.attempt x dataDir isAdmin input o) := by
  intro h
  let s := load (some privateQuestdb) fun path =>
    if path = managedCa "data" then some (questdbCa ++ "\n") else none
  have hspares := (unchanged_attempt_some plainServers "data" s ⟨.ok, true, .ok⟩ twoCredentials).1
    (h plainServers "data" s true (some twoCredentials) ⟨.ok, true, .ok⟩)
  have hold : questdbCa.utf8ByteSize = 492 := by
    rw [questdbCa, utf8ByteSize_pemText]
    decide +kernel
  have hnew : otherCa.utf8ByteSize = 504 := by
    rw [otherCa, utf8ByteSize_pemText]
    decide +kernel
  have hpem : twoCredentials.pem = some otherCa := nonEmpty_pemText _
  have hgood : QuestDbInput.badPem otherCa = false := badPem_pemText (hnew.le.trans (by decide))
  have hread (pem : String) : plainServers.clientConfig (some pem) =
      if pem = questdbCa ++ "\n" ∨ pem = otherCa ++ "\n" then .ok ()
      else .error "reading the CA" := rfl
  -- The certificate is complete: the exporter can be built with it.
  have hpasses : s.Passes plainServers "data" twoCredentials := by
    refine ⟨by rfl, isOk_sinks (by decide +kernel) ?_⟩
    rw [caFile_build, hpem, Option.map_some, clientConfig_http (files_storeCa s "data" otherCa)]
    exact (hread _).trans (if_pos (Or.inr rfl))
  have hinvalid : (s.placed plainServers "data" twoCredentials).validate ≠ .ok () := by
    decide +kernel
  -- The CA in force is the one that was given.
  have hmoved := (hspares.moved otherCa hpem hgood rfl hpasses rfl (.inl hinvalid)).1
    ⟨privateQuestdb, rfl, rfl⟩
  have hsame : (questdbCa ++ "\n").utf8ByteSize = (otherCa ++ "\n").utf8ByteSize :=
    congrArg String.utf8ByteSize (Option.some.inj hmoved)
  rw [String.utf8ByteSize_append, String.utf8ByteSize_append, hold, hnew] at hsame
  omega

end ExportChanges

end AuditGateway
