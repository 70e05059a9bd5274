import ScriptBridge.Proofs.Qualification.Lexical

/-!
# Scopes and addresses

The stack of scopes fits an address if it has one scope for each class around the
place, one open function for each function inside the class, and in each of them
exactly the names that were noted for it.  Every operation on the stack keeps the
fit if the address or the notes are changed accordingly.  A stack that fits asks
for the same receivers as the address.
-/

namespace ScriptBridge

/-- The function or class that a note is about. -/
def Note.number? : Note → Option Nat
  | .entered => none
  | .bound function _ => some function
  | .member owner _ _ => some owner

theorem Note.toDiagnostic_inj {first second : Note} :
    first.toDiagnostic = second.toDiagnostic ↔ first = second := by
  constructor
  · intro same
    cases first with
    | entered => cases second <;> simp_all [toDiagnostic]
    | bound function name => cases second <;> simp_all [toDiagnostic]
    | member owner name isStatic =>
        cases second with
        | member other otherName otherStatic =>
            cases isStatic <;> cases otherStatic <;> simp_all [toDiagnostic]
        | _ => simp_all [toDiagnostic]
  · rintro rfl
    rfl

theorem Note.isNote_toDiagnostic (note : Note) : note.toDiagnostic.isNote = true := by
  cases note <;> rfl

theorem noted_append_note (log : List Diagnostic) (added note : Note) :
    noted (log ++ [added.toDiagnostic]) note = (noted log note || decide (note = added)) := by
  simp only [noted, List.contains_eq_mem, List.mem_append, List.mem_singleton,
    Note.toDiagnostic_inj, Bool.decide_or]

theorem noted_append_problem (log : List Diagnostic) {diagnostic : Diagnostic}
    (isProblem : diagnostic.isNote = false) (note : Note) :
    noted (log ++ [diagnostic]) note = noted log note := by
  have different : note.toDiagnostic ≠ diagnostic := by
    intro same
    rw [← same, note.isNote_toDiagnostic] at isProblem
    cases isProblem
  simp [noted, different]

/-- Two logs that differ at most in notes about one function or class. -/
def SameExcept (skipped : Nat) (log other : List Diagnostic) : Prop :=
  ∀ (note : Note) number, note.number? = some number → number ≠ skipped →
    noted other note = noted log note

namespace SameExcept

theorem append_note {skipped : Nat} {added : Note}
    (about : ∀ number, added.number? = some number → number = skipped)
    (log : List Diagnostic) : SameExcept skipped log (log ++ [added.toDiagnostic]) := by
  intro note number isAbout different
  have notAdded : note ≠ added := by
    rintro rfl
    exact different (about number isAbout)
  rw [noted_append_note]
  simp [notAdded]

theorem append_problem {diagnostic : Diagnostic} (isProblem : diagnostic.isNote = false)
    (skipped : Nat) (log : List Diagnostic) :
    SameExcept skipped log (log ++ [diagnostic]) :=
  fun note _ _ _ => noted_append_problem log isProblem note

end SameExcept

/-- The numbers of the functions and classes of an address. -/
def Address.numbers : Address → List Nat
  | [] => []
  | .function number :: rest => number :: numbers rest
  | .memberBody :: rest => numbers rest
  | .owner owner :: rest => owner.number :: numbers rest

theorem Address.number_mem_numbers {address : Address} {owner : Owner}
    (found : address.owner? = some owner) : owner.number ∈ address.numbers := by
  induction address with
  | nil => cases found
  | cons region rest ih =>
      cases region with
      | function number => exact List.mem_cons_of_mem number (ih found)
      | memberBody => exact ih found
      | owner other =>
          cases found
          exact List.mem_cons_self

theorem Address.function_mem_numbers {address : Address} {number : Nat}
    (found : address.functions.head? = some number) : number ∈ address.numbers := by
  induction address with
  | nil => cases found
  | cons region rest ih =>
      cases region with
      | function other =>
          cases found
          exact List.mem_cons_self
      | memberBody => exact ih found
      | owner owner => cases found

/-- The log behind the binding of a name at an address. -/
def logBound (address : Address) (name : String) (log : List Diagnostic) : List Diagnostic :=
  match address.functions.head? with
  | some number => log ++ [(Note.bound number name).toDiagnostic]
  | none => log

/-- The log behind the declaration of a member at an address. -/
def logMember (address : Address) (isStatic : Bool) (name : String) (log : List Diagnostic) :
    List Diagnostic :=
  match address.owner? with
  | some owner => log ++ [(Note.member owner.number name isStatic).toDiagnostic]
  | none => log

/-- A function binds the names that were noted for it. -/
def FitsFunction (log : List Diagnostic) (number : Nat) (function : FunctionScope) : Prop :=
  ∀ name, function.binds name = noted log (.bound number name)

/-- A class has the members that were noted for it. -/
structure FitsOwner (log : List Diagnostic) (owner : Owner) (known : ClassScope) : Prop where
  name : known.name = owner.name
  superClass : known.superClass = owner.superClass
  statics : ∀ name, known.statics.contains name = noted log (.member owner.number name true)
  members : ∀ name, known.hasMember name =
    (noted log (.member owner.number name true) || noted log (.member owner.number name false))

/-- A scope, with the scopes around it, fits an address. -/
inductive Fits (log : List Diagnostic) : Address → Scope → List Scope → Prop
  | outside : Fits log [] {} []
  | function {address : Address} {scope : Scope} {outer : List Scope} {number : Nat}
      {frame : Frame} :
      Fits log address scope outer → FitsFunction log number frame.function →
      (frame.isMethod = true → ∃ known, scope.owner = some known ∧
        known.methods.contains frame.function.name = true) →
      Fits log (.function number :: address) { scope with frames := frame :: scope.frames } outer
  | memberBody {address : Address} {scope : Scope} {outer : List Scope} :
      Fits log address scope outer → address.functions ≠ [] →
      Fits log (.memberBody :: address) { scope with inMemberBody := true } outer
  | owner {address : Address} {below : Scope} {outer : List Scope} {owner : Owner}
      {known : ClassScope} :
      Fits log address below outer → FitsOwner log owner known →
      Fits log (.owner owner :: address) { owner := some known } (below :: outer)

theorem FitsFunction.congr {log other : List Diagnostic} {number skipped : Nat}
    {function : FunctionScope} (same : SameExcept skipped log other) (different : number ≠ skipped)
    (fits : FitsFunction log number function) : FitsFunction other number function := by
  intro name
  rw [fits name, same (.bound number name) number rfl different]

theorem FitsOwner.congr {log other : List Diagnostic} {owner : Owner} {skipped : Nat}
    {known : ClassScope} (same : SameExcept skipped log other) (different : owner.number ≠ skipped)
    (fits : FitsOwner log owner known) : FitsOwner other owner known := by
  have unchanged (name : String) (isStatic : Bool) :
      noted other (.member owner.number name isStatic) =
        noted log (.member owner.number name isStatic) :=
    same _ _ rfl different
  refine ⟨fits.name, fits.superClass, ?_, ?_⟩
  · intro name
    rw [fits.statics name, unchanged]
  · intro name
    rw [fits.members name, unchanged, unchanged]

namespace Fits

variable {log other : List Diagnostic} {address : Address} {scope : Scope} {outer : List Scope}

/-- Notes about a function or class that is not around do not matter. -/
theorem congr {skipped : Nat} (same : SameExcept skipped log other)
    (fits : Fits log address scope outer) (absent : skipped ∉ address.numbers) :
    Fits other address scope outer := by
  induction fits with
  | outside => exact outside
  | function fits binds known ih =>
      simp only [Address.numbers, List.mem_cons, not_or] at absent
      exact function (ih absent.2) (binds.congr same (Ne.symm absent.1)) known
  | memberBody fits inFunction ih => exact memberBody (ih absent) inFunction
  | owner fits members ih =>
      simp only [Address.numbers, List.mem_cons, not_or] at absent
      exact owner (ih absent.2) (members.congr same (Ne.symm absent.1))

/-! ## What a scope that fits asks for -/

theorem inMemberBody (fits : Fits log address scope outer) :
    scope.inMemberBody = address.inMemberBody := by
  induction fits with
  | outside => rfl
  | function fits binds known ih => exact ih
  | memberBody fits inFunction ih => rfl
  | owner fits members ih => rfl

theorem bindsName (fits : Fits log address scope outer) (name : String) :
    scope.bindsName name = address.functions.any fun number => noted log (.bound number name) := by
  induction fits with
  | outside => rfl
  | function fits binds known ih =>
      simp only [Scope.bindsName, List.any_cons, Address.functions] at ih ⊢
      rw [binds name, ih]
  | memberBody fits inFunction ih => exact ih
  | owner fits members ih => rfl

theorem isEmpty_frames (fits : Fits log address scope outer) :
    scope.frames.isEmpty = address.functions.isEmpty := by
  induction fits with
  | outside => rfl
  | function fits binds known ih => rfl
  | memberBody fits inFunction ih => exact ih
  | owner fits members ih => rfl

/-- The body of a member stands in the function of the member. -/
theorem functions_ne_nil (fits : Fits log address scope outer)
    (inBody : address.inMemberBody = true) : address.functions ≠ [] := by
  induction fits with
  | outside => cases inBody
  | function fits binds known ih => exact List.cons_ne_nil _ _
  | memberBody fits inFunction ih => exact inFunction
  | owner fits members ih => cases inBody

theorem owner_eq_none (fits : Fits log address scope outer) (absent : address.owner? = none) :
    scope.owner = none := by
  induction fits with
  | outside => rfl
  | function fits binds known ih => exact ih absent
  | memberBody fits inFunction ih => exact ih absent
  | owner fits members ih => cases absent

theorem fitsOwner (fits : Fits log address scope outer) {owner : Owner}
    (found : address.owner? = some owner) :
    ∃ known, scope.owner = some known ∧ FitsOwner log owner known := by
  induction fits with
  | outside => cases found
  | function fits binds known ih => exact ih found
  | memberBody fits inFunction ih => exact ih found
  | owner fits members ih =>
      cases found
      exact ⟨_, rfl, members⟩

/-- A scope that fits asks for the receiver of the address. -/
theorem qualifier (fits : Fits log address scope outer) (index : Option MemberIndex)
    (name : String) : scope.qualifier index name = address.receiver? log index name := by
  unfold Scope.qualifier Address.receiver?
  cases found : address.owner? with
  | none => rw [fits.owner_eq_none found]
  | some owner =>
      obtain ⟨known, isKnown, members⟩ := fits.fitsOwner found
      rw [isKnown]
      dsimp only
      rw [fits.inMemberBody, fits.bindsName, fits.isEmpty_frames]
      have noFunction : (!address.inMemberBody || address.functions.isEmpty) =
          !address.inMemberBody := by
        cases inBody : address.inMemberBody with
        | false => rfl
        | true =>
            have some := fits.functions_ne_nil inBody
            simpa using some
      rw [noFunction, members.statics, members.members, members.name, members.superClass]
      split
      · rfl
      split
      · rfl
      next notStatic =>
        rw [Bool.not_eq_true] at notStatic
        cases index <;> cases owner.superClass <;> simp only [notStatic, Bool.false_or]

/-! ## What the operations on scopes keep -/

/-- A name is bound in the innermost function and noted for it. -/
theorem bindName (fits : Fits log address scope outer) (distinct : address.numbers.Nodup)
    (name : String) (change : FunctionScope → FunctionScope)
    (binds : ∀ function other, (change function).binds other =
      (function.binds other || decide (other = name)))
    (keeps : ∀ function, (change function).name = function.name) :
    Fits (logBound address name log) address (scope.modifyFunction change) outer := by
  induction fits with
  | outside => exact outside
  | @function address scope outer number frame fits bound known ih =>
      simp only [Address.numbers, List.nodup_cons] at distinct
      change Fits (log ++ [(Note.bound number name).toDiagnostic]) _
        { scope with frames := { frame with function := change frame.function } :: scope.frames } _
      have about : ∀ other, (Note.bound number name).number? = some other → other = number :=
        fun other same => (Option.some.inj same).symm
      apply function (fits.congr (.append_note about log) distinct.1)
      · intro other
        rw [binds, bound other, noted_append_note]
        simp
      · intro isMethod
        obtain ⟨owner, isOwner, contains⟩ := known isMethod
        exact ⟨owner, isOwner, by rw [keeps]; exact contains⟩
  | @memberBody address scope outer fits inFunction ih =>
      have marked : Scope.modifyFunction { scope with inMemberBody := true } change =
          { scope.modifyFunction change with inMemberBody := true } := by
        obtain ⟨owner, frames, inMemberBody⟩ := scope
        cases frames <;> rfl
      rw [marked]
      exact memberBody (ih distinct) inFunction
  | owner fits members ih => exact owner fits members

/-- What is known of the innermost class changes together with the notes about it. -/
theorem changeOwner (fits : Fits log address scope outer) (distinct : address.numbers.Nodup)
    (change : ClassScope → ClassScope)
    (same : ∀ owner, address.owner? = some owner → SameExcept owner.number log other)
    (members : ∀ owner known, address.owner? = some owner → scope.owner = some known →
      FitsOwner log owner known → FitsOwner other owner (change known))
    (keeps : ∀ known name, known.methods.contains name = true →
      (change known).methods.contains name = true)
    (unchanged : address.owner? = none → other = log) :
    Fits other address { scope with owner := scope.owner.map change } outer := by
  induction fits with
  | outside =>
      rw [unchanged rfl]
      exact outside
  | @function address scope outer number frame fits bound known ih =>
      simp only [Address.numbers, List.nodup_cons] at distinct
      refine function (ih distinct.2 same members unchanged) ?_ ?_
      · cases found : address.owner? with
        | none =>
            rw [unchanged found]
            exact bound
        | some owner =>
            refine bound.congr (same owner found) ?_
            rintro rfl
            exact distinct.1 (Address.number_mem_numbers found)
      · intro isMethod
        obtain ⟨owner, isOwner, contains⟩ := known isMethod
        exact ⟨change owner, by rw [isOwner]; rfl, keeps owner _ contains⟩
  | memberBody fits inFunction ih =>
      exact memberBody (ih distinct same members unchanged) inFunction
  | owner fits ownMembers ih =>
      simp only [Address.numbers, List.nodup_cons] at distinct
      exact owner (fits.congr (same _ rfl) distinct.1) (members _ _ rfl rfl ownMembers)

end Fits

/-! ## Declared members -/

namespace ClassScope

theorem hasMember_putMethod (known : ClassScope) (function : FunctionScope) (name : String) :
    (known.putMethod function).hasMember name =
      (known.hasMember name || decide (name = function.name)) := by
  simp only [hasMember, putMethod, OrderedMap.contains, OrderedMap.find?_insert]
  by_cases same : name = function.name <;> simp [same]

theorem hasMember_addStatic (known : ClassScope) (added name : String) (isStatic : Bool) :
    (known.addStatic added isStatic).hasMember name = known.hasMember name := by
  unfold addStatic
  split <;> rfl

theorem methods_addStatic (known : ClassScope) (added : String) (isStatic : Bool) :
    (known.addStatic added isStatic).methods = known.methods := by
  unfold addStatic
  split <;> rfl

theorem contains_statics_addStatic (known : ClassScope) (added name : String)
    (isStatic : Bool) :
    (known.addStatic added isStatic).statics.contains name =
      (known.statics.contains name || (isStatic && decide (name = added))) := by
  unfold addStatic
  by_cases same : name = added
  · subst same
    cases isStatic <;> cases found : known.statics.contains name <;> simp_all
  · cases isStatic <;> cases found : known.statics.contains added <;> simp_all

theorem hasMember_addProperty (known : ClassScope) (added name : String) (isStatic : Bool) :
    (known.addProperty added isStatic).hasMember name =
      (known.hasMember name || decide (name = added)) := by
  unfold addProperty
  rw [hasMember_addStatic]
  simp [hasMember, Bool.or_assoc]

end ClassScope

/-- A member is declared in a class and noted for it. -/
theorem FitsOwner.declare {log : List Diagnostic} {owner : Owner} {known declared : ClassScope}
    (fits : FitsOwner log owner known) (added : String) (isStatic : Bool)
    (sameName : declared.name = known.name) (sameSuper : declared.superClass = known.superClass)
    (statics : ∀ name, declared.statics.contains name =
      (known.statics.contains name || (isStatic && decide (name = added))))
    (members : ∀ name, declared.hasMember name =
      (known.hasMember name || decide (name = added))) :
    FitsOwner (log ++ [(Note.member owner.number added isStatic).toDiagnostic]) owner
      declared := by
  refine ⟨sameName.trans fits.name, sameSuper.trans fits.superClass, ?_, ?_⟩
  · intro name
    rw [statics, fits.statics, noted_append_note]
    cases isStatic <;> simp
  · intro name
    rw [members, fits.members, noted_append_note, noted_append_note]
    cases isStatic <;> simp [Bool.or_assoc, Bool.or_comm, Bool.or_left_comm]

/-- The numbers of an address were given out before, each only once, and notes are
only about numbers that were given out. -/
structure Numbered (log : List Diagnostic) (address : Address) : Prop where
  distinct : address.numbers.Nodup
  entered : ∀ number ∈ address.numbers, number < log.length
  known : ∀ (note : Note) number, note.number? = some number → noted log note = true →
    number < log.length

namespace Numbered

variable {log : List Diagnostic} {address : Address}

theorem append_problem (numbered : Numbered log address) {diagnostic : Diagnostic}
    (isProblem : diagnostic.isNote = false) : Numbered (log ++ [diagnostic]) address := by
  refine ⟨numbered.distinct, ?_, ?_⟩
  · intro number member
    have earlier := numbered.entered number member
    simp only [List.length_append, List.length_singleton]
    omega
  · intro note number about found
    rw [noted_append_problem log isProblem] at found
    have earlier := numbered.known note number about found
    simp only [List.length_append, List.length_singleton]
    omega

theorem append_note (numbered : Numbered log address) {added : Note}
    (inAddress : ∀ number, added.number? = some number → number ∈ address.numbers) :
    Numbered (log ++ [added.toDiagnostic]) address := by
  refine ⟨numbered.distinct, ?_, ?_⟩
  · intro number member
    have earlier := numbered.entered number member
    simp only [List.length_append, List.length_singleton]
    omega
  · intro note number about found
    simp only [List.length_append, List.length_singleton]
    rw [noted_append_note, Bool.or_eq_true, decide_eq_true_eq] at found
    rcases found with found | rfl
    · have earlier := numbered.known note number about found
      omega
    · have earlier := numbered.entered number (inAddress number about)
      omega

/-- A region that is entered gets a number of its own. -/
theorem enter (numbered : Numbered log address) {region : Region}
    (fresh : Address.numbers (region :: address) = log.length :: address.numbers) :
    Numbered (log ++ [Note.entered.toDiagnostic]) (region :: address) := by
  have before : Numbered (log ++ [Note.entered.toDiagnostic]) address :=
    numbered.append_note (by simp [Note.number?])
  refine ⟨?_, ?_, before.known⟩
  · rw [fresh, List.nodup_cons]
    refine ⟨fun member => ?_, numbered.distinct⟩
    exact Nat.lt_irrefl _ (numbered.entered _ member)
  · intro number member
    rw [fresh, List.mem_cons] at member
    rcases member with rfl | member
    · simp
    · exact before.entered number member

/-- Nothing is noted of a number that has not been given out. -/
theorem fresh (numbered : Numbered log address) {note : Note}
    (about : note.number? = some log.length) : noted log note = false := by
  cases found : noted log note with
  | false => rfl
  | true => exact (Nat.lt_irrefl _ (numbered.known note log.length about found)).elim

end Numbered

/-- A stack of scopes shows what was noted around a place. -/
structure Sees (address : Address) (stack : ScopeStack) (log : List Diagnostic) : Prop where
  fits : Fits log address stack.top stack.outer
  numbered : Numbered log address

namespace Sees

variable {address : Address} {stack : ScopeStack} {log : List Diagnostic}

theorem start : Sees [] {} [] :=
  ⟨.outside, List.nodup_nil, by simp [Address.numbers], by simp [noted]⟩

theorem qualifier (sees : Sees address stack log) (index : Option MemberIndex) (name : String) :
    stack.qualifier index name = address.receiver? log index name :=
  sees.fits.qualifier index name

/-- Some number that is not around. -/
theorem absent (sees : Sees address stack log) : log.length ∉ address.numbers :=
  fun member => Nat.lt_irrefl _ (sees.numbered.entered _ member)

theorem append_problem (sees : Sees address stack log) {diagnostic : Diagnostic}
    (isProblem : diagnostic.isNote = false) : Sees address stack (log ++ [diagnostic]) :=
  ⟨sees.fits.congr (.append_problem isProblem _ log) sees.absent,
    sees.numbered.append_problem isProblem⟩

theorem append_entered (sees : Sees address stack log) :
    Sees address stack (log ++ [Note.entered.toDiagnostic]) := by
  have about : ∀ number, Note.entered.number? = some number → number = log.length := by
    simp [Note.number?]
  exact ⟨sees.fits.congr (.append_note about log) sees.absent,
    sees.numbered.append_note (by simp [Note.number?])⟩

/-- A name becomes known to the innermost function. -/
theorem bindName (sees : Sees address stack log) (name : String)
    (change : FunctionScope → FunctionScope)
    (binds : ∀ function other, (change function).binds other =
      (function.binds other || decide (other = name)))
    (keeps : ∀ function, (change function).name = function.name) :
    Sees address (stack.modifyTop fun scope => scope.modifyFunction change)
      (logBound address name log) := by
  refine ⟨sees.fits.bindName sees.numbered.distinct name change binds keeps, ?_⟩
  unfold logBound
  cases found : address.functions.head? with
  | none => exact sees.numbered
  | some number =>
      refine sees.numbered.append_note fun other about => ?_
      cases about
      exact Address.function_mem_numbers found

theorem declareParam (sees : Sees address stack log) (name : String) :
    Sees address (stack.declareParam name) (logBound address name log) := by
  refine sees.bindName name _ ?_ (fun function => rfl)
  intro function other
  simp only [FunctionScope.binds, List.contains_eq_mem, List.mem_append, List.mem_singleton,
    Bool.decide_or]
  rw [Bool.or_right_comm]

theorem declareLocal (sees : Sees address stack log) (name : String) :
    Sees address (stack.declareLocal name) (logBound address name log) := by
  refine sees.bindName name _ ?_ (fun function => rfl)
  intro function other
  simp only [FunctionScope.binds, List.contains_eq_mem, List.mem_append, List.mem_singleton,
    Bool.decide_or, Bool.or_assoc]

/-- A member becomes known to the innermost class. -/
theorem declareMember (sees : Sees address stack log) (added : String) (isStatic : Bool)
    (change : ClassScope → ClassScope)
    (sameName : ∀ known, (change known).name = known.name)
    (sameSuper : ∀ known, (change known).superClass = known.superClass)
    (statics : ∀ known name, (change known).statics.contains name =
      (known.statics.contains name || (isStatic && decide (name = added))))
    (members : ∀ known name, (change known).hasMember name =
      (known.hasMember name || decide (name = added)))
    (keeps : ∀ known name, known.methods.contains name = true →
      (change known).methods.contains name = true) :
    Sees address (stack.modifyTop fun scope => { scope with owner := scope.owner.map change })
      (logMember address isStatic added log) := by
  unfold logMember
  cases found : address.owner? with
  | none =>
      refine ⟨sees.fits.changeOwner sees.numbered.distinct change ?_ ?_ keeps fun _ => rfl,
        sees.numbered⟩
      · intro owner isOwner
        rw [found] at isOwner
        cases isOwner
      · intro owner known isOwner
        rw [found] at isOwner
        cases isOwner
  | some owner =>
      have isAdded : ∀ other, (Note.member owner.number added isStatic).number? = some other →
          other = owner.number :=
        fun other same => (Option.some.inj same).symm
      refine ⟨sees.fits.changeOwner sees.numbered.distinct change ?_ ?_ keeps ?_, ?_⟩
      · intro other isOwner
        rw [found] at isOwner
        cases isOwner
        exact .append_note isAdded log
      · intro other known isOwner _ fits
        rw [found] at isOwner
        cases isOwner
        exact fits.declare added isStatic (sameName known) (sameSuper known) (statics known)
          (members known)
      · intro isNone
        rw [found] at isNone
        cases isNone
      · refine sees.numbered.append_note fun other about => ?_
        rw [isAdded other about]
        exact Address.number_mem_numbers found

theorem declareProperty (sees : Sees address stack log) (name : String) (isStatic : Bool) :
    Sees address (stack.declareProperty name isStatic) (logMember address isStatic name log) := by
  refine sees.declareMember name isStatic _ ?_ ?_ ?_ ?_ ?_
  · intro known
    simp only [ClassScope.addProperty, ClassScope.addStatic]
    split <;> rfl
  · intro known
    simp only [ClassScope.addProperty, ClassScope.addStatic]
    split <;> rfl
  · intro known other
    exact ClassScope.contains_statics_addStatic _ name other isStatic
  · intro known other
    exact ClassScope.hasMember_addProperty known name other isStatic
  · intro known other contains
    rw [ClassScope.addProperty, ClassScope.methods_addStatic]
    exact contains

/-- A function is entered that has bound nothing yet. -/
theorem pushFrame (sees : Sees address stack log) (frame : Frame)
    (empty : ∀ name, frame.function.binds name = false)
    (known : frame.isMethod = true → ∃ known, stack.top.owner = some known ∧
      known.methods.contains frame.function.name = true) :
    Sees (.function log.length :: address)
      (stack.modifyTop fun scope => { scope with frames := frame :: scope.frames })
      (log ++ [Note.entered.toDiagnostic]) := by
  refine ⟨.function sees.append_entered.fits ?_ known, sees.numbered.enter rfl⟩
  intro name
  rw [empty, noted_append_note, sees.numbered.fresh rfl]
  rfl

theorem enterFunction (sees : Sees address stack log) (name : String) :
    Sees (.function log.length :: address) (stack.enterFunction name false false)
      (log ++ [Note.entered.toDiagnostic]) := by
  have pushed := sees.pushFrame ⟨{ name }, false⟩ (fun _ => rfl) (fun isMethod => by cases isMethod)
  have same : stack.enterFunction name false false =
      stack.modifyTop fun scope => { scope with frames := ⟨{ name }, false⟩ :: scope.frames } := by
    obtain ⟨⟨owner, frames, inMemberBody⟩, outer⟩ := stack
    cases owner <;> rfl
  rw [same]
  exact pushed

/-- A method is entered.  It is a member of its class from then on. -/
theorem enterMethod (sees : Sees address stack log) (name : String) (isStatic : Bool) :
    Sees (.function (logMember address isStatic name log).length :: address)
      (stack.enterFunction name true isStatic)
      (logMember address isStatic name log ++ [Note.entered.toDiagnostic]) := by
  have declared := sees.declareMember name isStatic
    (fun known => (known.putMethod { name }).addStatic name isStatic)
    (by intro known; simp only [ClassScope.addStatic]; split <;> rfl)
    (by intro known; simp only [ClassScope.addStatic]; split <;> rfl)
    (fun known other => ClassScope.contains_statics_addStatic _ name other isStatic)
    (fun known other => by
      rw [ClassScope.hasMember_addStatic, ClassScope.hasMember_putMethod])
    (fun known other contains => by
      rw [ClassScope.methods_addStatic]
      simp only [ClassScope.putMethod, OrderedMap.contains, OrderedMap.find?_insert]
      split
      · rfl
      · exact contains)
  cases found : stack.top.owner with
  | none =>
      have pushed := declared.pushFrame ⟨{ name }, false⟩ (fun _ => rfl)
        (fun isMethod => by cases isMethod)
      have same : stack.enterFunction name true isStatic =
          (stack.modifyTop fun scope => { scope with
            owner := scope.owner.map fun known =>
              (known.putMethod { name }).addStatic name isStatic }).modifyTop fun scope =>
            { scope with frames := ⟨{ name }, false⟩ :: scope.frames } := by
        simp only [ScopeStack.enterFunction, Scope.openFunction, ScopeStack.modifyTop, found,
          Option.map_none]
      rw [same]
      exact pushed
  | some known =>
      have pushed := declared.pushFrame ⟨{ name }, true⟩ (fun _ => rfl) fun _ => by
        refine ⟨_, congrArg (Option.map _) found, ?_⟩
        rw [ClassScope.methods_addStatic]
        simp [ClassScope.putMethod, OrderedMap.contains]
      have same : stack.enterFunction name true isStatic =
          (stack.modifyTop fun scope => { scope with
            owner := scope.owner.map fun known =>
              (known.putMethod { name }).addStatic name isStatic }).modifyTop fun scope =>
            { scope with frames := ⟨{ name }, true⟩ :: scope.frames } := by
        simp only [ScopeStack.enterFunction, Scope.openFunction, ScopeStack.modifyTop, found,
          Option.map_some]
      rw [same]
      exact pushed

/-- A function is left.  Its class learns nothing new of it. -/
theorem exitFunction {number : Nat} (sees : Sees (.function number :: address) stack log) :
    Sees address stack.exitFunction.1 log := by
  obtain ⟨fits, numbered⟩ := sees
  have before : Numbered log address := by
    refine ⟨(List.nodup_cons.mp numbered.distinct).2, ?_, numbered.known⟩
    exact fun other member => numbered.entered other (List.mem_cons_of_mem number member)
  obtain ⟨top, outer⟩ := stack
  cases fits with
  | @function _ scope _ _ frame fits binds known =>
      refine ⟨?_, before⟩
      change Fits log address { scope with
        owner := if frame.isMethod then
            scope.owner.map fun owner => owner.putMethod frame.function
          else scope.owner } outer
      cases isMethod : frame.isMethod with
      | false => exact fits
      | true =>
          obtain ⟨method, isKnown, contains⟩ := known isMethod
          refine fits.changeOwner before.distinct _ (fun _ _ _ _ _ _ => rfl) ?_ ?_ (fun _ => rfl)
          · intro owner other isOwner isOther fits
            rw [isKnown] at isOther
            cases isOther
            refine ⟨fits.name, fits.superClass, fits.statics, fun name => ?_⟩
            rw [ClassScope.hasMember_putMethod, ← fits.members name]
            by_cases same : name = frame.function.name
            · simp [same, ClassScope.hasMember, contains]
            · simp [same]
          · intro other name isMember
            simp only [ClassScope.putMethod, OrderedMap.contains, OrderedMap.find?_insert]
            split
            · rfl
            · exact isMember

theorem enterClass (sees : Sees address stack log) (name : String) (superClass : Option String) :
    Sees (.owner ⟨log.length, name, superClass⟩ :: address) (stack.enterClass name superClass)
      (log ++ [Note.entered.toDiagnostic]) := by
  refine ⟨.owner sees.append_entered.fits ⟨rfl, rfl, ?_, ?_⟩, sees.numbered.enter rfl⟩
  · intro other
    rw [noted_append_note, sees.numbered.fresh rfl]
    rfl
  · intro other
    rw [noted_append_note, noted_append_note, sees.numbered.fresh rfl, sees.numbered.fresh rfl]
    rfl

theorem exitClass {owner : Owner} (sees : Sees (.owner owner :: address) stack log) :
    Sees address stack.exitClass.1 log := by
  obtain ⟨fits, numbered⟩ := sees
  obtain ⟨top, outer⟩ := stack
  cases fits with
  | owner fits members =>
      refine ⟨fits, (List.nodup_cons.mp numbered.distinct).2, ?_, numbered.known⟩
      exact fun other member => numbered.entered other (List.mem_cons_of_mem owner.number member)

theorem enterMemberBody (sees : Sees address stack log) (inFunction : address.functions ≠ []) :
    Sees (.memberBody :: address) (stack.markMemberBody true) log :=
  ⟨.memberBody sees.fits inFunction, sees.numbered.distinct, sees.numbered.entered,
    sees.numbered.known⟩

theorem exitMemberBody (sees : Sees (.memberBody :: address) stack log) :
    Sees address (stack.markMemberBody address.inMemberBody) log := by
  obtain ⟨fits, numbered⟩ := sees
  obtain ⟨top, outer⟩ := stack
  cases fits with
  | @memberBody _ scope _ fits inFunction =>
      refine ⟨?_, numbered.distinct, numbered.entered, numbered.known⟩
      change Fits log address { scope with inMemberBody := address.inMemberBody } outer
      rw [← fits.inMemberBody]
      exact fits

end Sees

end ScriptBridge
