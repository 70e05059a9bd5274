import ScriptBridge.Proofs.Batch.Growth

/-!
# Making sources side by side

The making of a source takes turns with the makings of the others.  In one turn it looks
where its code goes, in the next it reads the kept tree and generates the code, then it
makes the directory, and then it writes the file.  A making that has four turns in a row
is the making of the source on its own.
-/

namespace ScriptBridge

/-- How far the making of a source has come. -/
inductive Making where
  | begun
  /-- It is known where the code goes. -/
  | aimed (target : Path)
  /-- The code has been generated. -/
  | generated (target : Path) (code : Generated)
  /-- The directory for the code is there. -/
  | housed (target : Path) (code : Generated)
  | finished (result : Except BatchError (Path × List Diagnostic))

namespace Run

variable {path : Path} {files made : FileSystem}

theorem store_of_made (text : String) (parent : Run.makeParent path files = .ok () made) :
    Run.store path text files =
      match made.write path text with
      | .ok after => .ok () after
      | .error cause => .error (.unwritableFile path cause) made := by
  unfold Run.store
  rw [bind_of_ok parent]
  refine (change_write_apply ..).trans ?_
  cases made.write path text <;> rfl

theorem store_of_not_made {cause : BatchError} (text : String)
    (parent : Run.makeParent path files = .error cause made) :
    Run.store path text files = .error cause made := by
  unfold Run.store
  rw [bind_of_error parent]

end Run

namespace Job

variable {job : Job} {index : MemberIndex} {source : SourceFile} {files : FileSystem}

/-- Where the code of a source goes. -/
def target (job : Job) (files : FileSystem) (source : SourceFile) : Path :=
  files.targetPath job.input job.output source.relative

/-- The code of a source, from its kept tree. -/
def codeOf (job : Job) (index : MemberIndex) (files : FileSystem) (source : SourceFile) :
    Except BatchError Generated :=
  match files.read (job.area.tree source.relative) with
  | .error cause => .error (.noKeptTree (job.area.tree source.relative) cause)
  | .ok written =>
      match Node.readProgram written with
      | .error cause => .error (.unusableTree source.relative cause)
      | .ok tree =>
          match Settings.generate ⟨job.configuration.options, some index, source.relative⟩ tree with
          | .error diagnostic => .error (.stopped diagnostic)
          | .ok code => .ok code

/-- Go on with the making of a source. -/
def turn (job : Job) (index : MemberIndex) (source : SourceFile) :
    Making → FileSystem → Making × FileSystem
  | .begun, files =>
      (.aimed (files.targetPath job.input job.output source.relative), files)
  | .aimed target, files =>
      match job.codeOf index files source with
      | .ok code => (.generated target code, files)
      | .error cause => (.finished (.error cause), files)
  | .generated target code, files =>
      match (Run.makeParent target).run files with
      | .ok _ after => (.housed target code, after)
      | .error cause after => (.finished (.error cause), after)
  | .housed target code, files =>
      match files.write target code.text with
      | .ok after => (.finished (.ok (target, code.diagnostics)), after)
      | .error cause => (.finished (.error (.unwritableFile target cause)), files)
  | .finished result, files => (.finished result, files)

/-- Nothing happens in the turns of a finished making. -/
theorem turn_finished (job : Job) (index : MemberIndex) (source : SourceFile)
    (result : Except BatchError (Path × List Diagnostic)) (files : FileSystem) :
    job.turn index source (.finished result) files = (.finished result, files) :=
  rfl

/-- One turn more. -/
def again (job : Job) (index : MemberIndex) (source : SourceFile)
    (state : Making × FileSystem) : Making × FileSystem :=
  job.turn index source state.1 state.2

/-- Four turns in a row. -/
def fourTurns (job : Job) (index : MemberIndex) (source : SourceFile)
    (making : Making) (files : FileSystem) : Making × FileSystem :=
  job.again index source (job.again index source (job.again index source
    (job.turn index source making files)))

theorem ofExcept_ok_bind {Cause First Value : Type} (failure : Cause → BatchError) (value : First)
    (next : First → Run Value) : (Run.ofExcept failure (.ok value) >>= next) = next value :=
  rfl

theorem ofExcept_error_bind {Cause First Value : Type} (failure : Cause → BatchError)
    (cause : Cause) (next : First → Run Value) (files : FileSystem) :
    (Run.ofExcept failure (.error cause) >>= next) files = .error (failure cause) files :=
  rfl

/-- A source is made by storing its code. -/
theorem makeSource_apply (job : Job) (index : MemberIndex) (source : SourceFile)
    (files : FileSystem) :
    job.makeSource index source files =
      match job.codeOf index files source with
      | .error cause => .error cause files
      | .ok code =>
          let target := files.targetPath job.input job.output source.relative
          (do Run.store target code.text; return (target, code.diagnostics)) files := by
  unfold makeSource codeOf
  rw [Run.get_bind_apply]
  cases files.read (job.area.tree source.relative) with
  | error cause => rw [ofExcept_error_bind]
  | ok written =>
      rw [ofExcept_ok_bind]
      dsimp only
      cases Node.readProgram written with
      | error cause => rw [ofExcept_error_bind]
      | ok tree =>
          rw [ofExcept_ok_bind]
          dsimp only
          cases Settings.generate ⟨job.configuration.options, some index, source.relative⟩ tree with
          | error diagnostic => rw [ofExcept_error_bind]
          | ok code => rw [ofExcept_ok_bind]

theorem attempt_apply {Value : Type} (step : Run Value) (files : FileSystem) :
    Run.attempt step files =
      match step files with
      | .ok value after => .ok (.ok value) after
      | .error cause after => .ok (.error cause) after :=
  rfl

theorem fourTurns_eq {first second third fourth fifth : Making}
    {middle later further after : FileSystem}
    (one : job.turn index source first files = (second, middle))
    (two : job.turn index source second middle = (third, later))
    (three : job.turn index source third later = (fourth, further))
    (four : job.turn index source fourth further = (fifth, after)) :
    job.fourTurns index source first files = (fifth, after) := by
  rw [fourTurns, one]
  change job.again index source (job.again index source (job.turn index source second middle)) = _
  rw [two]
  change job.again index source (job.turn index source third later) = _
  rw [three]
  exact four

/-- The making of a source on its own has four turns. -/
theorem attempt_makeSource (job : Job) (index : MemberIndex) (source : SourceFile)
    (files : FileSystem) :
    ∃ result after, job.fourTurns index source .begun files = (.finished result, after) ∧
      Run.attempt (job.makeSource index source) files = .ok result after := by
  rw [attempt_apply, makeSource_apply]
  generalize targetEq : files.targetPath job.input job.output source.relative = target
  have aims : job.turn index source .begun files = (.aimed target, files) := by
    rw [← targetEq]
    rfl
  cases read : job.codeOf index files source with
  | error cause =>
      have stops : job.turn index source (.aimed target) files =
          (.finished (.error cause), files) := by
        unfold turn
        dsimp only
        rw [read]
      have rests := turn_finished job index source (.error cause) files
      exact ⟨.error cause, files, fourTurns_eq aims stops rests rests, rfl⟩
  | ok code =>
      have generates : job.turn index source (.aimed target) files =
          (.generated target code, files) := by
        unfold turn
        dsimp only
        rw [read]
      dsimp only
      cases parent : (Run.makeParent target).run files with
      | error cause made =>
          have stops : job.turn index source (.generated target code) files =
              (.finished (.error cause), made) := by
            unfold turn
            dsimp only
            rw [parent]
          have stored := Run.store_of_not_made code.text parent
          rw [Run.bind_of_error stored]
          have rests := turn_finished job index source (.error cause) made
          exact ⟨.error cause, made, fourTurns_eq aims generates stops rests, rfl⟩
      | ok value made =>
          have houses : job.turn index source (.generated target code) files =
              (.housed target code, made) := by
            unfold turn
            dsimp only
            rw [parent]
          have stored := Run.store_of_made code.text parent
          cases written : made.write target code.text with
          | error cause =>
              have stops : job.turn index source (.housed target code) made =
                  (.finished (.error (.unwritableFile target cause)), made) := by
                unfold turn
                dsimp only
                rw [written]
              rw [written] at stored
              rw [Run.bind_of_error stored]
              exact ⟨_, _, fourTurns_eq aims generates houses stops, rfl⟩
          | ok after =>
              have writes : job.turn index source (.housed target code) made =
                  (.finished (.ok (target, code.diagnostics)), after) := by
                unfold turn
                dsimp only
                rw [written]
              rw [written] at stored
              rw [Run.bind_of_ok stored]
              exact ⟨_, _, fourTurns_eq aims generates houses writes, rfl⟩

end Job

end ScriptBridge
