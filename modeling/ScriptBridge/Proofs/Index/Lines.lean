import Mathlib.Data.List.Chain
import ScriptBridge.Proofs.Qualification.Ancestors

/-!
# Lines of superclasses

A member is looked for along the recorded superclasses.  The walk that stops at the
first class it meets again ends in every index, whatever its entries record, and it
misses nothing: it finds the members of exactly those classes to which a finite line of
recorded superclasses leads.
-/

namespace ScriptBridge

namespace MemberIndex

/-- The entry of a class records the given superclass. -/
def Extends (index : MemberIndex) (name superClass : String) : Prop :=
  ∃ entry, index.find? name = some entry ∧ entry.superClass = some superClass

/-- A line of classes leads from a class to one that lists a member.  All of them are in
the index, and each is the recorded superclass of the one in front of it. -/
structure LeadsTo (index : MemberIndex) (name member : String) (line : List String) :
    Prop where
  starts : line.head? = some name
  known : ∀ className ∈ line, ∃ entry, index.find? className = some entry
  linked : line.IsChain index.Extends
  listed : ∃ className entry, line.getLast? = some className ∧
    index.find? className = some entry ∧
    (member ∈ entry.properties ∨ member ∈ entry.methods)

/-- One class that is known and was not met before leaves fewer to meet. -/
theorem length_unmet_lt {index : MemberIndex} {met : List String} {name : String}
    {entry : ClassEntry} (unmet : name ∉ met) (found : index.find? name = some entry) :
    (index.classes.keys.filter (· ∉ name :: met)).length <
      (index.classes.keys.filter (· ∉ met)).length := by
  have isKey : name ∈ index.classes.keys :=
    List.mem_map_of_mem (OrderedMap.mem_of_lookup found)
  have smaller : index.classes.keys.filter (· ∉ name :: met) =
      (index.classes.keys.filter (· ∉ met)).filter (· ≠ name) := by
    rw [List.filter_filter]
    simp
  rw [smaller]
  refine List.length_filter_lt_length_iff_exists.mpr ⟨name, ?_, by simp⟩
  exact List.mem_filter.mpr ⟨isKey, by simpa using unmet⟩

/-- Look for a member along the superclasses, and stop at the first class that was met
before. -/
def walk (index : MemberIndex) (member : String) (met : List String) (name : String) : Bool :=
  if _met : name ∈ met then false
  else
    match _found : index.find? name with
    | none => false
    | some entry =>
        entry.hasMember member ||
          match entry.superClass with
          | some superClass => index.walk member (name :: met) superClass
          | none => false
termination_by (index.classes.keys.filter (· ∉ met)).length
decreasing_by exact length_unmet_lt ‹name ∉ met› ‹index.find? name = some entry›

/-- The index without what it knows of some classes. -/
def without (index : MemberIndex) (met : List String) : MemberIndex :=
  met.foldr (fun name rest => rest.erase name) index

theorem find?_without (index : MemberIndex) (met : List String) (name : String) :
    (index.without met).find? name = if name ∈ met then none else index.find? name := by
  induction met with
  | nil => simp [without]
  | cons first rest ih =>
      have step : (index.without (first :: rest)).find? name =
          if name = first then none else (index.without rest).find? name :=
        find?_erase _ _ _
      rw [step, ih]
      by_cases same : name = first <;> simp [same]

/-- A class offers its own members and those that its superclass offers without it. -/
theorem offers_iff {index : MemberIndex} {name member : String} :
    index.Offers name member ↔
      ∃ entry, index.find? name = some entry ∧
        (entry.hasMember member = true ∨
          ∃ superClass, entry.superClass = some superClass ∧
            (index.erase name).Offers superClass member) := by
  constructor
  · rintro ⟨ancestor, entry, above, isEntry, has⟩
    by_cases same : ancestor = name
    · subst same
      exact ⟨entry, isEntry, .inl has⟩
    · have kept : (index.erase name).find? ancestor = some entry := by
        rw [find?_erase, if_neg same, isEntry]
      -- A way that comes back to the class goes on from its superclass at last.
      rcases above.avoids name with avoided | ⟨own, superClass, isOwn, isSuper, avoided⟩
      · cases avoided with
        | self => exact absurd rfl same
        | above found =>
            rw [find?_erase, if_pos rfl] at found
            cases found
      · exact ⟨own, isOwn, .inr ⟨superClass, isSuper, ancestor, entry, avoided, kept, has⟩⟩
  · rintro ⟨entry, isEntry, own | ⟨superClass, isSuper, ancestor, other, above, isOther, has⟩⟩
    · exact ⟨name, entry, .self name, isEntry, own⟩
    · have different : ancestor ≠ name := by
        rintro rfl
        rw [find?_erase, if_pos rfl] at isOther
        cases isOther
      rw [find?_erase, if_neg different] at isOther
      exact ⟨ancestor, other, .above isEntry isSuper above.of_erase, isOther, has⟩

/-- What the walk finds is offered without the classes that were met. -/
theorem walk_iff (index : MemberIndex) (member : String) (met : List String) (name : String) :
    index.walk member met name = true ↔ (index.without met).Offers name member := by
  fun_induction walk index member met name with
  | case1 met name isMet =>
      rw [offers_iff, find?_without, if_pos isMet]
      simp
  | case2 met name unmet missing =>
      rw [offers_iff, find?_without, if_neg unmet, missing]
      simp
  | case3 met name unmet entry found ih =>
      rw [offers_iff, find?_without, if_neg unmet, found, Bool.or_eq_true]
      cases isSuper : entry.superClass with
      | none => simp [isSuper]
      | some superClass =>
          dsimp only
          rw [ih superClass]
          simp [isSuper, without]

/-- The bounded line of ancestors finds what the walk finds. -/
theorem inherits_eq_walk (index : MemberIndex) (name member : String) :
    index.inherits name member = index.walk member [] name := by
  apply Bool.eq_iff_iff.mpr
  rw [inherits_iff, walk_iff]
  rfl

theorem hasMember_iff {entry : ClassEntry} {member : String} :
    entry.hasMember member = true ↔ member ∈ entry.properties ∨ member ∈ entry.methods := by
  simp [ClassEntry.hasMember]

namespace LeadsTo

variable {index : MemberIndex} {name superClass member : String} {line : List String}

/-- A line may start one class earlier. -/
theorem cons (leads : index.LeadsTo superClass member line)
    (extended : index.Extends name superClass) : index.LeadsTo name member (name :: line) := by
  obtain ⟨starts, known, linked, listed⟩ := leads
  obtain ⟨entry, found, isSuper⟩ := extended
  refine ⟨rfl, ?_, ?_, ?_⟩
  · exact List.forall_mem_cons.mpr ⟨⟨entry, found⟩, known⟩
  · refine List.isChain_cons.mpr ⟨fun next isNext => ?_, linked⟩
    rw [starts] at isNext
    obtain rfl := Option.some.inj isNext
    exact ⟨entry, found, isSuper⟩
  · cases line with
    | nil => cases starts
    | cons first rest => simpa using listed

/-- A line leads to a class that offers the member. -/
theorem offers (leads : index.LeadsTo name member line) : index.Offers name member := by
  induction line generalizing name with
  | nil => cases leads.starts
  | cons first rest ih =>
      obtain rfl := Option.some.inj leads.starts
      obtain ⟨-, known, linked, listed⟩ := leads
      cases rest with
      | nil =>
          obtain ⟨className, entry, isLast, found, has⟩ := listed
          obtain rfl := Option.some.inj isLast
          exact ⟨first, entry, .self first, found, hasMember_iff.mpr has⟩
      | cons next rest =>
          obtain ⟨⟨entry, found, isSuper⟩, others⟩ := List.isChain_cons_cons.mp linked
          have behind : index.LeadsTo next member (next :: rest) :=
            ⟨rfl, (List.forall_mem_cons.mp known).2, others, by simpa using listed⟩
          obtain ⟨ancestor, other, above, isOther, has⟩ := ih behind
          exact ⟨ancestor, other, .above found isSuper above, isOther, has⟩

end LeadsTo

/-- To every class that offers a member leads a line. -/
theorem Offers.line {index : MemberIndex} {name member : String}
    (offers : index.Offers name member) : ∃ line, index.LeadsTo name member line := by
  obtain ⟨ancestor, entry, above, isEntry, has⟩ := offers
  induction above with
  | self name =>
      refine ⟨[name], rfl, ?_, List.isChain_singleton name, name, entry, rfl, isEntry,
        hasMember_iff.mp has⟩
      simp [isEntry]
  | above found isSuper _ ih =>
      obtain ⟨line, leads⟩ := ih isEntry
      exact ⟨_, leads.cons ⟨_, found, isSuper⟩⟩

/-- In every index the walk that stops at the first repeated class decides whether a
class inherits a member, and it does so exactly if a finite line of recorded
superclasses leads to a class that lists the member. -/
theorem inherits_iff_leadsTo (index : MemberIndex) (name member : String) :
    index.inherits name member = index.walk member [] name ∧
      (index.inherits name member = true ↔ ∃ line, index.LeadsTo name member line) := by
  refine ⟨inherits_eq_walk index name member, ?_⟩
  rw [inherits_iff]
  constructor
  · exact Offers.line
  · rintro ⟨line, leads⟩
    exact leads.offers

/-- A class that extends itself does not end the search too late or too early. -/
example :
    let bee : ClassEntry := { name := "Bee", file := "Bee.as", superClass := some "Insect" }
    let insect : ClassEntry :=
      { name := "Insect", file := "Insect.as", superClass := some "Bee", methods := ["fly"] }
    let index : MemberIndex := ({} : MemberIndex).insert bee |>.insert insect
    index.inherits "Bee" "fly" = true ∧ index.inherits "Insect" "sting" = false := by
  decide

end MemberIndex

end ScriptBridge
