import ScriptBridge.Normalize.Pipeline
import ScriptBridge.Proofs.Normalize.Constructor
import ScriptBridge.Proofs.Normalize.Header
import ScriptBridge.Proofs.Normalize.NameLimit
import ScriptBridge.Proofs.Normalize.Vectors

/-!
# Normalized skeletons

All rules together turn a skeleton in the source language into the same skeleton in the
target language, whatever its members are and in whatever order they stand.
-/

namespace ScriptBridge

namespace Normalize

/-! ## Heads -/

/-- What the rules in front of the package make of a head. -/
def exportedHead : List HeadWord → List HeadWord :=
  exportPair.change ∘ List.filter (· ≠ .finalWord)

/-- What the rules behind the imports make of a head, up to the word `function`. -/
def shortenedHead : List HeadWord → List HeadWord :=
  overridePair.change ∘ (droppedBehind HeadWord.accessWords .overrideWord).change ∘
    constantPair.change ∘ (droppedBehind HeadWord.modifierWords .varWord).change

/-- What all rules make of a head. -/
def translatedHead : List HeadWord → List HeadWord :=
  (droppedBehind HeadWord.modifierWords .functionWord).change ∘ shortenedHead ∘ exportedHead

theorem Field.translatedHead_head (field : Field) :
    translatedHead (field.head .source) = field.head .target := by
  obtain ⟨access, isStatic, isConstant, name, type⟩ := field
  cases access <;> cases isStatic <;> cases isConstant <;> rfl

theorem Method.translatedHead_head (method : Method) :
    translatedHead (method.head .source) = method.head .target := by
  have translated (override? : Option OverridePlace) (isFinal : Bool) (access : Access)
      (isStatic : Bool) (accessor? : Option Accessor) :
      translatedHead (HeadWord.overrideWord.onlyIf (override? = some .beforeAccess) ++
        HeadWord.finalWord.onlyIf isFinal ++ [access.word] ++
        HeadWord.overrideWord.onlyIf (override? = some .behindAccess) ++
        HeadWord.staticWord.onlyIf isStatic ++
        .functionWord :: accessor?.toList.map Accessor.word) =
      [access.word] ++ HeadWord.staticWord.onlyIf isStatic ++
        accessor?.toList.map Accessor.word := by
    rcases override? with _ | _ | _ <;> cases isFinal <;> cases access <;> cases isStatic <;>
      rcases accessor? with _ | _ | _ <;> decide
  exact translated method.override? method.isFinal method.access method.isStatic method.accessor?

theorem Member.translatedHead_head (member : Member) :
    translatedHead (member.head .source) = member.head .target := by
  cases member with
  | field declared => exact declared.translatedHead_head
  | constructor parameters => rfl
  | method declared => exact declared.translatedHead_head

theorem Skeleton.translatedHead_head (skeleton : Skeleton) :
    translatedHead (skeleton.head .source) = skeleton.head .target := by
  unfold head
  cases skeleton.isFinal <;> rfl

theorem Member.function_notMem_head (member : Member) : .functionWord ∉ member.head .target := by
  cases member with
  | field declared =>
      simp [head, Field.head, HeadWord.mem_onlyIf, Access.word_ne_function]
  | constructor parameters => simp [head]
  | method declared =>
      simp [head, Method.head, HeadWord.mem_onlyIf, Access.word_ne_function,
        Method.function_notMem_accessorWords]

namespace Skeleton

variable (width : Nat) (skeleton : Skeleton) (named : List (Identifier × Member))

theorem map_translatedHead (types : Language) :
    (skeleton.lines width .source types named).map (Line.mapHead translatedHead) =
      skeleton.lines width .target types named := by
  have ofMember (one : Identifier × Member) :
      Line.mapHead translatedHead (one.2.line width .source types one.1) =
        one.2.line width .target types one.1 :=
    congrArg (fun head => { one.2.line width .target types one.1 with head })
      one.2.translatedHead_head
  have ofClass : Line.mapHead translatedHead (skeleton.classLine width .source) =
      skeleton.classLine width .target :=
    congrArg (fun head => { skeleton.classLine width .target with head })
      skeleton.translatedHead_head
  rw [lines, List.map_cons, List.map_map, ofClass]
  exact congrArg (_ :: ·) (List.map_congr_left fun one _ => ofMember one)

/-! ## All rules -/

/-- The rules in front of the package change the heads. -/
theorem run_exported :
    exportPublicTypes.run (stripFinal.run (outline (skeleton.opening width .source .source)
        (skeleton.lines width .source .source named) (closing width))) =
      outline (skeleton.opening width .source .source)
        ((skeleton.lines width .source .source named).map (Line.mapHead exportedHead))
        (closing width) := by
  have plain := skeleton.isPlainOutline width .source .source .source .source named
  rw [run_stripFinal plain, run_exportPublicTypes (plain.mapHead _), List.map_map]
  rfl

/-- The package and the imports lie in front of the lines. -/
theorem outline_eq_header (packages imports : Language) (lines : List Line) :
    outline (skeleton.opening width packages imports) lines (closing width) =
      printPackage packages skeleton.package? ++
        (skeleton.imports.flatMap (fun name => newLine width 1 ++ printImport imports name) ++
          SpacedWord.textOf (lines.flatMap Line.pieces ++ closing width)) := by
  rw [outline, SpacedWord.textOf_append, text_opening, List.append_assoc]

theorem word_ne_import (change : List HeadWord → List HeadWord) :
    ∀ piece ∈ ((skeleton.lines width .source .source named).map
      (Line.mapHead change)).flatMap Line.pieces ++ closing width, piece.word ≠ importText := by
  have isKnown : importText ∈ lookedFor := by decide
  rw [← List.nil_append (_ ++ closing width)]
  refine forall_mem_outline nofun ?_ ?_
    ((@areOrdinary_closing [] width).word_ne isKnown (by decide))
  · intro line _ word _
    cases word <;> decide
  · intro line isLine
    obtain ⟨former, isFormer, rfl⟩ := List.mem_map.mp isLine
    exact (skeleton.areOrdinary_lines width .source .source named former isFormer).word_ne isKnown
      (by decide)

/-- The package becomes a module, and the imports are taken from paths. -/
theorem run_header (change : List HeadWord → List HeadWord) :
    destructureImports.run (packageToModule.run (outline (skeleton.opening width .source .source)
        ((skeleton.lines width .source .source named).map (Line.mapHead change))
        (closing width))) =
      outline (skeleton.opening width .target .target)
        ((skeleton.lines width .source .source named).map (Line.mapHead change))
        (closing width) := by
  rw [outline_eq_header, run_packageToModule, run_destructureImports width _ _ rfl
    (skeleton.word_ne_import width named change), ← outline_eq_header]

/-- The rules for members change the heads. -/
theorem run_shortened :
    stripFunctionKeyword.run (stripOverride.run (stripFieldVar.run
      (outline (skeleton.opening width .target .target)
        ((skeleton.lines width .source .source named).map (Line.mapHead exportedHead))
        (closing width)))) =
      outline (skeleton.opening width .target .target)
        (skeleton.lines width .target .source named) (closing width) := by
  have plain := (skeleton.isPlainOutline width .target .target .source .source named).mapHead
    exportedHead
  rw [run_stripFieldVar plain, run_stripOverride (plain.mapHead _),
    run_stripFunctionKeyword ((plain.mapHead _).mapHead _), List.map_map, List.map_map,
    List.map_map]
  · exact congrArg (outline _ · _) (skeleton.map_translatedHead width named .source)
  · intro line isLine
    simp only [List.map_map] at isLine
    obtain ⟨former, isFormer, rfl⟩ := List.mem_map.mp isLine
    show .functionWord ∉ translatedHead former.head
    rcases List.mem_cons.mp isFormer with rfl | isFormer
    · show .functionWord ∉ translatedHead (skeleton.head .source)
      rw [skeleton.translatedHead_head]
      show .functionWord ∉ [HeadWord.exportWord, HeadWord.classWord]
      decide
    · obtain ⟨⟨name, member⟩, -, rfl⟩ := List.mem_map.mp isFormer
      show .functionWord ∉ translatedHead (member.head .source)
      rw [member.translatedHead_head]
      exact member.function_notMem_head

/-- The text of a skeleton with given names is normalized to the one in the target
language, where the first function called like the class gets the name of
constructors. -/
theorem normalizeText_printNamed
    (fits : named.any (isFunctionCalled skeleton.name) = true →
      (functionHeadExpression skeleton.name.text).fitsLimit = true) :
    normalizeText (skeleton.printNamed width .source named) =
      skeleton.printNamed width .target (renameFirst skeleton.name named) := by
  let renamed := renameFirst skeleton.name named
  have keeps (types : Language) := areOrdinary_outline width .target .target .target types
    skeleton renamed
  let text (types : Language) := outline (skeleton.opening width .target .target)
    (skeleton.lines width .target types renamed) (closing width)
  have tests : isToInstanceof.run (text .source) = text .source := run_isToInstanceof (keeps _)
  have loops : forEachToForOf.run (text .target) = text .target := run_forEachToForOf (keeps _)
  have shorthands : newShorthands.run (text .target) = text .target := run_newShorthands (keeps _)
  have vectors : vectorToArray.run (text .source) = text .target :=
    skeleton.run_vectorToArray width .target .target .target renamed
  simp only [normalizeText, rules, List.foldl_cons, List.foldl_nil, printNamed_eq,
    skeleton.run_renameConstructor width .source .source .source named fits]
  rw [run_exported, run_header, run_shortened, tests, vectors, loops, shorthands]

/-! ## Constructors -/

/-- The first function that is called like the class, if there is one, is a
constructor. -/
def ConstructorFirst : Prop :=
  ((skeleton.named .source).find? (isFunctionCalled skeleton.name)).all (·.2.isConstructor) = true

instance : Decidable skeleton.ConstructorFirst :=
  inferInstanceAs (Decidable (_ = _))

theorem renameFirst_named {className : Identifier} {members : List Member}
    (atMostOne : members.countP Member.isConstructor ≤ 1)
    (first : ((members.map fun member => (member.name .source className, member)).find?
      (isFunctionCalled className)).all (·.2.isConstructor) = true) :
    renameFirst className (members.map fun member => (member.name .source className, member)) =
      members.map fun member => (member.name .target className, member) := by
  have sameName {member : Member} (isNot : member.isConstructor = false) :
      member.name .source className = member.name .target className := by
    cases member with
    | constructor parameters => cases isNot
    | _ => rfl
  induction members with
  | nil => rfl
  | cons member members ih =>
      rw [List.countP_cons] at atMostOne
      rw [List.map_cons, List.find?_cons] at first
      rw [List.map_cons, List.map_cons, renameFirst]
      cases isCalled : isFunctionCalled className (member.name .source className, member) with
      | true =>
          -- the constructor itself, and no other one behind it
          rw [isCalled] at first
          have isConstructor : member.isConstructor = true := first
          have noOther : ∀ other ∈ members, other.isConstructor = false := by
            have isZero : members.countP Member.isConstructor = 0 := by
              rw [if_pos isConstructor] at atMostOne
              omega
            simpa using List.countP_eq_zero.mp isZero
          cases member with
          | constructor parameters =>
              rw [if_pos rfl]
              exact congrArg (_ :: ·) (List.map_congr_left fun other isOther => by
                rw [sameName (noOther other isOther)])
          | _ => cases isConstructor
      | false =>
          rw [isCalled] at first
          have isNot : member.isConstructor = false := by
            cases member with
            | constructor parameters => simp [isFunctionCalled, Member.name] at isCalled
            | _ => rfl
          rw [if_neg Bool.false_ne_true, sameName isNot, ih (by omega) first]

end Skeleton

/-- A skeleton in the source language is normalized to the same skeleton in the target
language, if its constructor is the first function called like the class and the pattern
for this function is within its limit. -/
theorem normalize_skeleton (width : Nat) (skeleton : Skeleton)
    (constructorFirst : skeleton.ConstructorFirst)
    (fits : skeleton.members.any Member.isConstructor = true →
      (functionHeadExpression skeleton.name.text).fitsLimit = true) :
    normalize (String.ofList (skeleton.print width .source)) =
      String.ofList (skeleton.print width .target) := by
  have isCalled (isAny : (skeleton.named .source).any (isFunctionCalled skeleton.name) = true) :
      skeleton.members.any Member.isConstructor = true := by
    obtain ⟨found, isFound⟩ := Option.isSome_iff_exists.mp (List.find?_isSome.mpr
      (List.any_eq_true.mp isAny))
    rw [Skeleton.ConstructorFirst, isFound] at constructorFirst
    obtain ⟨member, isMember, rfl⟩ := List.mem_map.mp (List.mem_of_find?_eq_some isFound)
    exact List.any_eq_true.mpr ⟨member, isMember, constructorFirst⟩
  rw [normalize, String.toList_ofList, Skeleton.print, skeleton.normalizeText_printNamed width _
    fun isAny => fits (isCalled isAny)]
  exact congrArg (fun named => String.ofList (skeleton.printNamed width .target named))
    (Skeleton.renameFirst_named skeleton.oneConstructor constructorFirst)

def uiName : Identifier where
  text := "ui".toList

def beeName : DottedName where
  qualifier := [uiName]
  last := { text := "Bee".toList }

def hiveName : Identifier where
  text := "Hive".toList

def intType : TypeName :=
  .named ⟨[], { text := "int".toList }⟩

/-- A class with members of all kinds. -/
def hive : Skeleton where
  package? := some ⟨[uiName], uiName⟩
  imports := [beeName]
  isFinal := true
  name := hiveName
  superclass? := some beeName
  members :=
    [.field ⟨.isPublic, true, true, { text := "MOST".toList }, intType⟩,
      .field ⟨.isPrivate, false, false, { text := "all".toList },
        .vector (.vector (.named beeName))⟩,
      .constructor [⟨{ text := "size".toList }, some intType⟩],
      .method ⟨some .beforeAccess, true, .isPublic, false, some .getter, uiName, [], intType⟩,
      .method ⟨none, false, .isPublic, true, none, hiveName, [], intType⟩]
  oneConstructor := by decide

theorem normalize_skeleton_hive :
    hive.ConstructorFirst ∧ (functionHeadExpression hive.name.text).fitsLimit = true ∧
      normalize (String.ofList (hive.print 1 .source)) =
        String.ofList (hive.print 1 .target) := by
  have constructorFirst : hive.ConstructorFirst := by decide
  have fits := fitsLimit_functionHeadExpression hive.name.isSome (by decide)
  exact ⟨constructorFirst, fits, normalize_skeleton 1 hive constructorFirst fun _ => fits⟩

/-- A class with a function of its name in front of the constructor. -/
def factory : Skeleton where
  package? := none
  imports := []
  isFinal := false
  name := hiveName
  superclass? := none
  members :=
    [.method ⟨none, false, .isPublic, true, none, hiveName, [], intType⟩, .constructor []]
  oneConstructor := by decide

/-- The function that is found first gets the name of constructors, and the constructor
keeps the name of the class. -/
theorem normalize_factory :
    normalize (String.ofList (factory.print 1 .source)) =
        "module __package \x7b
 export class Hive \x7b
  public static constructor():int \x7b\x7d
  public Hive() \x7b\x7d
 \x7d
\x7d
" ∧
      normalize (String.ofList (factory.print 1 .source)) ≠
        String.ofList (factory.print 1 .target) := by
  have normalized : normalize (String.ofList (factory.print 1 .source)) =
      String.ofList (factory.printNamed 1 .target
        (renameFirst factory.name (factory.named .source))) := by
    rw [normalize, String.toList_ofList, Skeleton.print,
      factory.normalizeText_printNamed 1 _ fun _ =>
        fitsLimit_functionHeadExpression factory.name.isSome (by decide)]
  rw [normalized]
  decide +kernel

end Normalize

end ScriptBridge
