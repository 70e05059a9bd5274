import ScriptBridge.MemberIndex
import ScriptBridge.Proofs.OrderedMap

/-!
# Ancestors in the index

The index follows superclasses by name, and an entry may come back to a class that was
met before.  The members found on the way are nevertheless those of all ancestors: a
shortest way to an ancestor meets no class twice, and so it is no longer than the index.
Without one of its entries the index finds the members of the ancestors in front of it.
-/

namespace ScriptBridge

namespace OrderedMap

variable {Key Value : Type} [DecidableEq Key]

/-- Take out all that stands under a key. -/
def erase (map : OrderedMap Key Value) (key : Key) : OrderedMap Key Value :=
  ⟨map.entries.filter fun entry => entry.1 ≠ key⟩

theorem find?_erase (map : OrderedMap Key Value) (key other : Key) :
    (map.erase key).find? other = if other = key then none else map.find? other := by
  obtain ⟨entries⟩ := map
  unfold erase find?
  induction entries with
  | nil => simp
  | cons entry rest ih =>
      obtain ⟨entryKey, value⟩ := entry
      by_cases erased : entryKey = key
      · subst erased
        have dropped : ((entryKey, value) :: rest).filter (fun entry => entry.1 ≠ entryKey) =
            rest.filter fun entry => entry.1 ≠ entryKey := by simp
        rw [dropped, ih]
        by_cases same : other = entryKey
        · simp [same]
        · simp [same, List.lookup_cons, beq_eq_false_iff_ne.mpr same]
      · have kept : ((entryKey, value) :: rest).filter (fun entry => entry.1 ≠ key) =
            (entryKey, value) :: rest.filter fun entry => entry.1 ≠ key := by simp [erased]
        rw [kept, List.lookup_cons, List.lookup_cons, ih]
        by_cases same : other = entryKey
        · subst same
          simp [erased]
        · simp [beq_eq_false_iff_ne.mpr same]

/-- A map becomes smaller if something stands under the key. -/
theorem size_erase_lt (map : OrderedMap Key Value) {key : Key} {value : Value}
    (found : map.find? key = some value) : (map.erase key).size < map.size := by
  have isEntry : (key, value) ∈ map.entries := mem_of_lookup found
  have isDropped : ∃ entry ∈ map.entries, ¬(decide (entry.1 ≠ key)) = true :=
    ⟨(key, value), isEntry, by simp⟩
  exact List.length_filter_lt_length_iff_exists.mpr isDropped

end OrderedMap

namespace MemberIndex

/-- The index without what it knows of a class. -/
def erase (index : MemberIndex) (name : String) : MemberIndex :=
  ⟨index.classes.erase name⟩

theorem find?_erase (index : MemberIndex) (name other : String) :
    (index.erase name).find? other = if other = name then none else index.find? other :=
  index.classes.find?_erase name other

/-- A name is that of the given class, or of one of its ancestors. -/
inductive HasAncestor (index : MemberIndex) : String → String → Prop where
  | self (name : String) : HasAncestor index name name
  | above {name superClass ancestor : String} {entry : ClassEntry} :
      index.find? name = some entry → entry.superClass = some superClass →
        HasAncestor index superClass ancestor → HasAncestor index name ancestor

/-- A class or one of its ancestors has a member. -/
def Offers (index : MemberIndex) (name member : String) : Prop :=
  ∃ ancestor entry, index.HasAncestor name ancestor ∧ index.find? ancestor = some entry ∧
    entry.hasMember member = true

namespace HasAncestor

variable {index : MemberIndex} {name ancestor : String}

theorem of_erase {erased : String} (above : (index.erase erased).HasAncestor name ancestor) :
    index.HasAncestor name ancestor := by
  induction above with
  | self name => exact .self name
  | above found isSuper _ ih =>
      rw [find?_erase] at found
      split at found
      · cases found
      · exact .above found isSuper ih

/-- On the way to an ancestor a class need not be met, or it is met for the last time
and the way goes on from its superclass. -/
theorem avoids (above : index.HasAncestor name ancestor) (met : String) :
    (index.erase met).HasAncestor name ancestor ∨
      ∃ entry superClass, index.find? met = some entry ∧ entry.superClass = some superClass ∧
        (index.erase met).HasAncestor superClass ancestor := by
  induction above with
  | self name => exact .inl (.self name)
  | @above name superClass ancestor entry found isSuper _ ih =>
      rcases ih with avoided | metLater
      · by_cases isMet : name = met
        · subst isMet
          exact .inr ⟨entry, superClass, found, isSuper, avoided⟩
        · have kept : (index.erase met).find? name = some entry := by
            rw [find?_erase, if_neg isMet, found]
          exact .inl (.above kept isSuper avoided)
      · exact .inr metLater

/-- The way to an ancestor is the same without a class that is not met on it. -/
theorem erase_of_not {erased : String} (above : index.HasAncestor name ancestor)
    (notMet : ¬index.HasAncestor name erased) : (index.erase erased).HasAncestor name ancestor := by
  induction above with
  | self name => exact .self name
  | @above name superClass ancestor entry found isSuper _ ih =>
      have different : name ≠ erased := by
        rintro rfl
        exact notMet (.self name)
      have kept : (index.erase erased).find? name = some entry := by
        rw [find?_erase, if_neg different, found]
      exact .above kept isSuper (ih fun met => notMet (.above found isSuper met))

end HasAncestor

theorem offers_of_lineage {index : MemberIndex} {bound : Nat} {name member : String}
    (found : (index.lineage bound name).any (·.hasMember member) = true) :
    index.Offers name member := by
  induction bound generalizing name with
  | zero => cases found
  | succ bound ih =>
      rw [lineage] at found
      cases isEntry : index.find? name with
      | none =>
          rw [isEntry] at found
          cases found
      | some entry =>
          rw [isEntry, List.any_cons, Bool.or_eq_true] at found
          rcases found with own | inherited
          · exact ⟨name, entry, .self name, isEntry, own⟩
          · cases isSuper : entry.superClass with
            | none =>
                rw [isSuper] at inherited
                cases inherited
            | some superClass =>
                rw [isSuper] at inherited
                obtain ⟨ancestor, other, above, isOther, has⟩ := ih inherited
                exact ⟨ancestor, other, .above isEntry isSuper above, isOther, has⟩

/-- Without one of its entries the index finds nothing new. -/
theorem lineage_of_erase {index : MemberIndex} {erased : String} {bound : Nat}
    {name member : String}
    (found : ((index.erase erased).lineage bound name).any (·.hasMember member) = true) :
    (index.lineage bound name).any (·.hasMember member) = true := by
  induction bound generalizing name with
  | zero => cases found
  | succ bound ih =>
      rw [lineage, find?_erase] at found
      rw [lineage]
      split at found
      · cases found
      · next entry isEntry =>
          split at isEntry
          · cases isEntry
          · rw [isEntry, List.any_cons, Bool.or_eq_true]
            rw [List.any_cons, Bool.or_eq_true] at found
            refine found.imp_right fun inherited => ?_
            cases isSuper : entry.superClass with
            | none =>
                rw [isSuper] at inherited
                cases inherited
            | some superClass =>
                rw [isSuper] at inherited
                exact ih inherited

/-- As many steps as the index has classes are enough to meet every ancestor. -/
theorem lineage_of_offers {bound : Nat} {index : MemberIndex} {name member : String}
    (enough : index.size ≤ bound) (offers : index.Offers name member) :
    (index.lineage bound name).any (·.hasMember member) = true := by
  induction bound generalizing index name with
  | zero =>
      obtain ⟨ancestor, entry, -, isEntry, -⟩ := offers
      have smaller := index.classes.size_erase_lt isEntry
      have empty : index.classes.size ≤ 0 := enough
      omega
  | succ bound ih =>
      obtain ⟨ancestor, entry, above, isEntry, has⟩ := offers
      rcases Classical.em (ancestor = name) with rfl | different
      · rw [lineage, isEntry, List.any_cons, has, Bool.true_or]
      · -- The rest of a shortest way does not meet the class itself again.
        have kept : (index.erase name).find? ancestor = some entry := by
          rw [find?_erase, if_neg different, isEntry]
        rcases above.avoids name with avoided | ⟨own, superClass, isOwn, isSuper, avoided⟩
        · cases avoided with
          | self => exact absurd rfl different
          | above found =>
              rw [find?_erase, if_pos rfl] at found
              cases found
        · have smaller := index.classes.size_erase_lt isOwn
          have enoughBehind : (index.erase name).size ≤ bound := by
            have : index.classes.size ≤ bound + 1 := enough
            change (index.classes.erase name).size ≤ bound
            omega
          have behind := lineage_of_erase
            (ih enoughBehind ⟨ancestor, entry, avoided, kept, has⟩)
          rw [lineage, isOwn, List.any_cons, isSuper, behind, Bool.or_true]

/-- The index finds exactly the members of a class and of all of its ancestors. -/
theorem inherits_iff {index : MemberIndex} {name member : String} :
    index.inherits name member = true ↔ index.Offers name member :=
  ⟨offers_of_lineage, lineage_of_offers (Nat.le_refl _)⟩

theorem inherits_of_erase {index : MemberIndex} {erased name member : String}
    (found : (index.erase erased).inherits name member = true) :
    index.inherits name member = true := by
  obtain ⟨ancestor, entry, above, isEntry, has⟩ := inherits_iff.mp found
  rw [find?_erase] at isEntry
  split at isEntry
  · cases isEntry
  · exact inherits_iff.mpr ⟨ancestor, entry, above.of_erase, isEntry, has⟩

/-- The entry of a class that is no ancestor does not matter. -/
theorem inherits_erase_of_not {index : MemberIndex} {erased name : String}
    (notMet : ¬index.HasAncestor name erased) (member : String) :
    (index.erase erased).inherits name member = index.inherits name member := by
  apply Bool.eq_iff_iff.mpr
  refine ⟨inherits_of_erase, fun found => ?_⟩
  obtain ⟨ancestor, entry, above, isEntry, has⟩ := inherits_iff.mp found
  have different : ancestor ≠ erased := by
    rintro rfl
    exact notMet above
  refine inherits_iff.mpr ⟨ancestor, entry, above.erase_of_not notMet, ?_, has⟩
  rw [find?_erase, if_neg different, isEntry]

end MemberIndex

end ScriptBridge
