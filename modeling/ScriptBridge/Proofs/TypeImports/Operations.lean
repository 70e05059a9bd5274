import Mathlib.Data.List.DropRight
import ScriptBridge.Proofs.OrderedMap
import ScriptBridge.TypeImports

/-!
# Sequences of notes about types

References to types and imported names are noted in any order, and a new file begins with
a reset.  What a sequence of such operations leaves behind depends only on the operations
since the last reset: the referenced names in the order of their first reference, and the
imported ones as a set.  So it makes no difference whether a name was noted as imported
before or after its references.
-/

namespace ScriptBridge.TypeImports

/-- One operation on the types of a file. -/
inductive Operation where
  | record (name : String)
  | noteImported (name : String)
  | reset
  deriving DecidableEq, Repr

namespace Operation

/-- The types after an operation. -/
def apply (types : TypeImports) : Operation → TypeImports
  | .record name => types.record name
  | .noteImported name => types.noteImported name
  | .reset => {}

def recorded? : Operation → Option String
  | .record name => some name
  | _ => none

def imported? : Operation → Option String
  | .noteImported name => some name
  | _ => none

/-- The operations behind the last reset. -/
def sinceReset (operations : List Operation) : List Operation :=
  operations.rtakeWhile (· ≠ .reset)

/-- The names recorded since the last reset, with all repetitions. -/
def recordedNames (operations : List Operation) : List String :=
  (sinceReset operations).filterMap recorded?

/-- The names noted as imported since the last reset. -/
def importedNames (operations : List Operation) : List String :=
  (sinceReset operations).filterMap imported?

theorem sinceReset_reset (operations : List Operation) :
    sinceReset (operations ++ [.reset]) = [] :=
  List.rtakeWhile_concat_neg _ _ _ (by simp)

theorem sinceReset_concat (operations : List Operation) {last : Operation}
    (goesOn : last ≠ .reset) :
    sinceReset (operations ++ [last]) = sinceReset operations ++ [last] :=
  List.rtakeWhile_concat_pos _ _ _ (by simpa using goesOn)

theorem recordedNames_concat (operations : List Operation) {last : Operation}
    (goesOn : last ≠ .reset) :
    recordedNames (operations ++ [last]) = recordedNames operations ++ last.recorded?.toList := by
  unfold recordedNames
  rw [sinceReset_concat _ goesOn, List.filterMap_append]
  cases last <;> rfl

theorem importedNames_concat (operations : List Operation) {last : Operation}
    (goesOn : last ≠ .reset) :
    importedNames (operations ++ [last]) = importedNames operations ++ last.imported?.toList := by
  unfold importedNames
  rw [sinceReset_concat _ goesOn, List.filterMap_append]
  cases last <;> rfl

end Operation

open Operation

/-- The types after a sequence of operations on a fresh record. -/
def run (operations : List Operation) : TypeImports :=
  operations.foldl Operation.apply {}

theorem run_concat (operations : List Operation) (last : Operation) :
    run (operations ++ [last]) = last.apply (run operations) := by
  simp [run]

/-- A reference is kept if it is the first one to a type that is not built in. -/
theorem record_eq (types : TypeImports) (names : List String) (name : String)
    (kept : types.referenced = names.eraseDups.filter fun name => !isBuiltin name) :
    types.record name =
      { types with
        referenced := (names ++ [name]).eraseDups.filter fun name => !isBuiltin name } := by
  rw [eraseDups_concat]
  unfold record
  by_cases known : name ∈ names
  · rw [if_pos known, ← kept]
    cases builtin : isBuiltin name with
    | true => rfl
    | false => rw [if_pos (by simp [kept, known, builtin])]
  · rw [if_neg known, List.filter_append, ← kept]
    cases builtin : isBuiltin name with
    | true => simp [builtin]
    | false => simp [builtin, kept, known]

/-- What a sequence of operations leaves behind. -/
theorem run_eq (operations : List Operation) :
    run operations =
      { referenced := (recordedNames operations).eraseDups.filter fun name => !isBuiltin name
        imported := (importedNames operations).reverse } := by
  induction operations using List.reverseRecOn with
  | nil => rfl
  | append_singleton operations last ih =>
      rw [run_concat, ih]
      cases last with
      | record name =>
          rw [recordedNames_concat _ (by simp), importedNames_concat _ (by simp)]
          exact (record_eq _ _ name rfl).trans (by simp [recorded?, imported?])
      | noteImported name =>
          rw [recordedNames_concat _ (by simp), importedNames_concat _ (by simp)]
          simp [Operation.apply, noteImported, recorded?, imported?]
      | reset =>
          unfold recordedNames importedNames
          rw [sinceReset_reset]
          rfl

/-- The missing imports are put in front one by one, so the last one comes first. -/
theorem prepend_eq_foldl (types : TypeImports) (file body : String) :
    types.prepend file body =
      types.pending.foldl (fun text name => importLine file name ++ text) body := by
  unfold prepend
  generalize types.pending = names
  induction names using List.reverseRecOn with
  | nil => simp
  | append_singleton names name ih =>
      rw [List.foldl_append, ← ih]
      simp [String.append_assoc]

theorem record_noteImported (types : TypeImports) (name other : String) :
    (types.record name).noteImported other = (types.noteImported other).record name := by
  unfold record noteImported
  dsimp only
  split <;> rfl

/-- After any sequence of operations the names that have to be imported are those
recorded since the last reset, in the order of their first reference, less the built-in
ones and those noted as imported, whenever that was; they are put in front of a text in
reverse order; and a reference and a neighbouring import may change places. -/
theorem pending_run (operations : List Operation) :
    (run operations).pending =
      ((recordedNames operations).eraseDups.filter fun name => !isBuiltin name).filter
        (fun name => name ∉ importedNames operations) ∧
    (∀ file body,
      (run operations).prepend file body =
        (run operations).pending.foldl (fun text name => importLine file name ++ text) body ∧
      (run operations).prepend file body =
        String.join ((run operations).pending.reverse.map (importLine file)) ++ body) ∧
    ∀ before after name other,
      run (before ++ .record name :: .noteImported other :: after) =
        run (before ++ .noteImported other :: .record name :: after) := by
  refine ⟨?_, fun file body => ⟨prepend_eq_foldl _ file body, rfl⟩, ?_⟩
  · rw [run_eq]
    refine List.filter_congr fun name _ => ?_
    simp [isImported]
  · intro before after name other
    simp only [run, List.foldl_append, List.foldl_cons, Operation.apply, record_noteImported]

end ScriptBridge.TypeImports
