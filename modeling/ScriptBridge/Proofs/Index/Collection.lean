import ScriptBridge.MemberIndex
import ScriptBridge.Proofs.OrderedMap

/-!
# Collecting the classes of a tree

The index takes up the named class declarations of a tree in the order of the tree.  A
class that is declared several times is known by its last declaration, at the place of
the first one, and classes that the tree does not declare stay as they were.  So a tree
that is collected again changes nothing, and trees that declare different classes may be
collected in either order.
-/

namespace ScriptBridge

namespace Node

/-- The name of the class that a node declares. -/
def declaredClass? (node : Node) : Option String :=
  match node.shape with
  | .classDefinition .declaration _ name _ _ _ _ => name.bind identifier?
  | _ => none

/-- The named class declarations of a tree, outer ones first. -/
def declaredClasses (tree : Node) : List Node :=
  tree.descendants.filter fun node => node.declaredClass?.isSome

/-- The names of the declared classes, with all repetitions. -/
def classNames (tree : Node) : List String :=
  tree.declaredClasses.filterMap declaredClass?

/-- The last declaration of a class in a tree. -/
def lastDeclaration? (tree : Node) (name : String) : Option Node :=
  tree.declaredClasses.reverse.find? fun node => node.declaredClass? = some name

theorem filterMap_declaredClass? (nodes : List Node) :
    (nodes.filter fun node => node.declaredClass?.isSome).filterMap declaredClass? =
      nodes.filterMap declaredClass? := by
  rw [List.filterMap_filter]
  congr 1
  funext node
  cases node.declaredClass? <;> rfl

theorem lastDeclaration?_isSome {tree : Node} {name : String} (declared : name ∈ tree.classNames) :
    ∃ declaration, tree.lastDeclaration? name = some declaration := by
  obtain ⟨node, isDeclared, isName⟩ := List.mem_filterMap.mp declared
  apply Option.isSome_iff_exists.mp
  rw [lastDeclaration?, List.find?_isSome]
  exact ⟨node, List.mem_reverse.mpr isDeclared, decide_eq_true isName⟩

theorem lastDeclaration?_eq_none {tree : Node} {name : String}
    (undeclared : name ∉ tree.classNames) :
    tree.lastDeclaration? name = none := by
  rw [lastDeclaration?, List.find?_eq_none]
  intro node isDeclared isName
  exact undeclared (List.mem_filterMap.mpr
    ⟨node, List.mem_reverse.mp isDeclared, of_decide_eq_true isName⟩)

end Node

namespace ClassEntry

theorem name_addMember (entry : ClassEntry) (member : Node) :
    (entry.addMember member).name = entry.name := by
  unfold addMember
  split
  · split <;> rfl
  · split
    · unfold addMethod
      split <;> rfl
    · rfl
  · rfl

theorem name_foldl_addMember (members : List Node) (entry : ClassEntry) :
    (members.foldl addMember entry).name = entry.name := by
  induction members generalizing entry with
  | nil => rfl
  | cons member rest ih => exact (ih _).trans (name_addMember entry member)

/-- A declaration has an entry under the name of its class. -/
theorem name_ofNode? (file : String) (node : Node) :
    (ofNode? file node).map name = node.declaredClass? := by
  obtain ⟨location, shape⟩ := node
  cases shape with
  | classDefinition form marks name superClass implementing body decorators =>
      cases form with
      | expression => rfl
      | declaration =>
          unfold ofNode? Node.declaredClass?
          dsimp only
          cases name.bind Node.identifier? with
          | none => rfl
          | some className => exact congrArg some (name_foldl_addMember _ _)
  | _ => rfl

/-- No method is listed twice, and no constructor is listed. -/
structure ListsMethodsOnce (entry : ClassEntry) : Prop where
  nodup : entry.methods.Nodup
  noConstructor : "constructor" ∉ entry.methods

theorem ListsMethodsOnce.addMethod {entry : ClassEntry} (once : entry.ListsMethodsOnce)
    (name : String) : (entry.addMethod name).ListsMethodsOnce := by
  unfold ClassEntry.addMethod
  split
  · exact once
  · next fresh =>
      rw [not_or] at fresh
      refine ⟨List.nodup_append.mpr ⟨once.nodup, List.nodup_singleton name, ?_⟩, ?_⟩
      · rintro method isMethod other isOther rfl
        exact fresh.2 (List.mem_singleton.mp isOther ▸ isMethod)
      · rw [List.mem_append, List.mem_singleton, not_or]
        exact ⟨once.noConstructor, Ne.symm fresh.1⟩

theorem ListsMethodsOnce.addMember {entry : ClassEntry} (once : entry.ListsMethodsOnce)
    (member : Node) : (entry.addMember member).ListsMethodsOnce := by
  unfold ClassEntry.addMember
  split
  · split
    · exact ⟨once.nodup, once.noConstructor⟩
    · exact once
  · split
    · exact once.addMethod _
    · exact once
  · exact once

theorem listsMethodsOnce_ofNode? {file : String} {node : Node} {entry : ClassEntry}
    (isEntry : ofNode? file node = some entry) : entry.ListsMethodsOnce := by
  have folded : ∀ (members : List Node) (start : ClassEntry), start.ListsMethodsOnce →
      (members.foldl ClassEntry.addMember start).ListsMethodsOnce := by
    intro members
    induction members with
    | nil => exact fun _ once => once
    | cons member rest ih => exact fun start once => ih _ (once.addMember member)
  unfold ofNode? at isEntry
  split at isEntry
  · obtain ⟨className, -, rfl⟩ := Option.map_eq_some_iff.mp isEntry
    exact folded _ _ ⟨List.nodup_nil, List.not_mem_nil⟩
  · cases isEntry

end ClassEntry

namespace MemberIndex

theorem collectCounting_eq (index : MemberIndex) (tree : Node) (file : String) :
    index.collectCounting tree file =
      (index.collect tree file, (declaredIn file tree).length) := by
  have counts : ∀ (entries : List ClassEntry) (start : MemberIndex) (found : Nat),
      entries.foldl (fun counted entry => (counted.1.insert entry, counted.2 + 1))
        (start, found) = (entries.foldl insert start, found + entries.length) := by
    intro entries
    induction entries with
    | nil => exact fun _ _ => rfl
    | cons entry rest ih =>
        intro start found
        rw [List.foldl_cons, List.foldl_cons, ih, List.length_cons, Nat.add_right_comm,
          Nat.add_assoc]
  exact (counts _ index 0).trans (by rw [Nat.zero_add, collect])

theorem length_declaredIn (file : String) (tree : Node) :
    (declaredIn file tree).length = tree.declaredClasses.length := by
  have sameLength : ∀ nodes : List Node,
      (nodes.filterMap (ClassEntry.ofNode? file)).length =
        (nodes.filter fun node => node.declaredClass?.isSome).length := by
    intro nodes
    induction nodes with
    | nil => rfl
    | cons node rest ih =>
        rw [List.filterMap_cons, List.filter_cons, ← ClassEntry.name_ofNode? file node]
        cases ClassEntry.ofNode? file node <;> simp [ih]
  exact sameLength tree.descendants

/-- The entries of a tree, each under its name. -/
def declaredEntries (file : String) (tree : Node) : List (String × ClassEntry) :=
  (declaredIn file tree).map fun entry => (entry.name, entry)

theorem names_declaredEntries (file : String) (tree : Node) :
    (declaredEntries file tree).map Prod.fst = tree.classNames := by
  unfold declaredEntries declaredIn Node.classNames Node.declaredClasses
  rw [Node.filterMap_declaredClass?, List.map_map, List.map_filterMap]
  congr 1
  funext node
  exact ClassEntry.name_ofNode? file node

theorem collect_eq_insertAll (index : MemberIndex) (tree : Node) (file : String) :
    index.collect tree file = ⟨index.classes.insertAll (declaredEntries file tree)⟩ := by
  unfold collect declaredEntries OrderedMap.insertAll
  rw [List.foldl_map]
  generalize declaredIn file tree = entries
  induction entries generalizing index with
  | nil => rfl
  | cons entry rest ih => exact ih (index.insert entry)

/-- The last entry under a name is that of the last declaration. -/
theorem lookup_declaredEntries (file : String) (tree : Node) (name : String) :
    (declaredEntries file tree).reverse.lookup name =
      (tree.lastDeclaration? name).bind (ClassEntry.ofNode? file) := by
  have found : ∀ nodes : List Node,
      ((nodes.filterMap (ClassEntry.ofNode? file)).map fun entry => (entry.name, entry)).lookup
          name =
        (nodes.find? fun node => node.declaredClass? = some name).bind
          (ClassEntry.ofNode? file) := by
    intro nodes
    induction nodes with
    | nil => rfl
    | cons node rest ih =>
        rw [List.filterMap_cons, List.find?_cons, ← ClassEntry.name_ofNode? file node]
        cases isEntry : ClassEntry.ofNode? file node with
        | none => simpa using ih
        | some entry =>
            by_cases same : entry.name = name
            · simp [same, isEntry]
            · simpa [same, List.lookup_cons, beq_eq_false_iff_ne.mpr (Ne.symm same)] using ih
  have named : tree.lastDeclaration? name =
      tree.descendants.reverse.find? fun node => node.declaredClass? = some name := by
    unfold Node.lastDeclaration? Node.declaredClasses
    rw [← List.filter_reverse, List.find?_filter]
    congr 1
    funext node
    cases node.declaredClass? <;> simp
  rw [named, ← found, List.filterMap_reverse, List.map_reverse]
  rfl

theorem find?_collect (index : MemberIndex) (tree : Node) (file name : String) :
    (index.collect tree file).find? name =
      ((tree.lastDeclaration? name).bind (ClassEntry.ofNode? file)).or (index.find? name) := by
  rw [collect_eq_insertAll, ← lookup_declaredEntries]
  exact OrderedMap.find?_insertAll _ _ _

theorem find?_collect_of_undeclared (index : MemberIndex) {tree : Node} {name : String}
    (undeclared : name ∉ tree.classNames) (file : String) :
    (index.collect tree file).find? name = index.find? name := by
  rw [find?_collect, Node.lastDeclaration?_eq_none undeclared]
  rfl

/-- A class that the tree declares is known by its last declaration, whatever was known
before. -/
theorem find?_collect_of_declared (index : MemberIndex) {tree : Node} {name : String}
    (declared : name ∈ tree.classNames) (file : String) :
    ∃ declaration entry, tree.lastDeclaration? name = some declaration ∧
      ClassEntry.ofNode? file declaration = some entry ∧
      (index.collect tree file).find? name = some entry := by
  obtain ⟨declaration, isLast⟩ := Node.lastDeclaration?_isSome declared
  have isName : declaration.declaredClass? = some name :=
    of_decide_eq_true (List.find?_some isLast :)
  rw [← ClassEntry.name_ofNode? file] at isName
  obtain ⟨entry, isEntry, -⟩ := Option.map_eq_some_iff.mp isName
  refine ⟨declaration, entry, isLast, isEntry, ?_⟩
  rw [find?_collect, isLast, Option.bind_some, isEntry]
  rfl

theorem collect_collect (index : MemberIndex) (tree : Node) (file : String) :
    (index.collect tree file).collect tree file = index.collect tree file := by
  simp only [collect_eq_insertAll]
  exact congrArg MemberIndex.mk (OrderedMap.insertAll_insertAll index.classes.entries _)

/-- Trees that declare different classes may be collected in either order. -/
theorem find?_collect_comm (index : MemberIndex) {first second : Node}
    (disjoint : first.classNames.Disjoint second.classNames) (file otherFile name : String) :
    ((index.collect first file).collect second otherFile).find? name =
      ((index.collect second otherFile).collect first file).find? name := by
  by_cases inFirst : name ∈ first.classNames
  · have notInSecond := disjoint inFirst
    rw [find?_collect_of_undeclared _ notInSecond, find?_collect, find?_collect,
      find?_collect_of_undeclared _ notInSecond]
  · rw [find?_collect_of_undeclared (index.collect second otherFile) inFirst,
      find?_collect _ second, find?_collect_of_undeclared _ inFirst, find?_collect]

/-- What collecting a tree does to an index: how many classes it finds, what is known of
each class afterwards, and in which order the classes stand. -/
theorem collect_determines (index : MemberIndex) (tree : Node) (file : String) :
    let collected := index.collect tree file
    index.collectCounting tree file = (collected, tree.declaredClasses.length) ∧
    (∀ name ∈ tree.classNames, ∃ declaration entry,
      tree.lastDeclaration? name = some declaration ∧
      ClassEntry.ofNode? file declaration = some entry ∧
      collected.find? name = some entry ∧
      entry.methods.Nodup ∧ "constructor" ∉ entry.methods) ∧
    (∀ name, name ∉ tree.classNames → collected.find? name = index.find? name) ∧
    collected.classes.keys =
      index.classes.keys ++
        tree.classNames.eraseDups.filter (fun name => name ∉ index.classes.keys) ∧
    collected.collect tree file = collected ∧
    ∀ (other : Node) (otherFile : String), tree.classNames.Disjoint other.classNames →
      ∀ name, (collected.collect other otherFile).find? name =
        ((index.collect other otherFile).collect tree file).find? name := by
  intro collected
  refine ⟨?_, ?_, fun name undeclared => find?_collect_of_undeclared index undeclared file, ?_,
    collect_collect index tree file, fun other otherFile disjoint =>
      find?_collect_comm index disjoint file otherFile⟩
  · rw [collectCounting_eq, length_declaredIn]
  · intro name declared
    obtain ⟨declaration, entry, isLast, isEntry, isKnown⟩ :=
      find?_collect_of_declared index declared file
    have once := ClassEntry.listsMethodsOnce_ofNode? isEntry
    exact ⟨declaration, entry, isLast, isEntry, isKnown, once.nodup, once.noConstructor⟩
  · rw [← names_declaredEntries file]
    change (index.collect tree file).classes.keys = _
    rw [collect_eq_insertAll]
    exact OrderedMap.keys_insertAll _ _

/-- A file with a class inside a method of its namesake, and a file with another class. -/
theorem collect_determines_bees :
    let name (text : String) : Node := ⟨{}, .identifier text none false⟩
    let classWith (text : String) (members : List Node) : Node :=
      ⟨{}, .classDefinition .declaration {} (some (name text)) none []
        ⟨{}, .group .classBody members⟩ []⟩
    let method (text : String) (body : List Node) : Node :=
      ⟨{}, .method .concrete {} (name text)
        ⟨{}, .function .expression {} none [] (some ⟨{}, .group .block body⟩) none⟩⟩
    let inner := classWith "Bee" [method "constructor" [], method "fly" [], method "fly" []]
    let bees := classWith "Bee" [method "sting" [inner]]
    let hive := classWith "Hive" []
    let collected := ({} : MemberIndex).collect bees "Bee.as"
    (({} : MemberIndex).collectCounting bees "Bee.as").2 = 2 ∧
    collected.find? "Bee" = some { name := "Bee", file := "Bee.as", methods := ["fly"] } ∧
    "Hive" ∉ bees.classNames ∧ collected.find? "Hive" = none ∧
    bees.classNames.Disjoint hive.classNames ∧
    ∀ name, (collected.collect hive "Hive.as").find? name =
      ((({} : MemberIndex).collect hive "Hive.as").collect bees "Bee.as").find? name := by
  intro name classWith method inner bees hive collected
  have apart : ∀ name ∈ bees.classNames, name ∉ hive.classNames := by
    decide
  have isDisjoint : bees.classNames.Disjoint hive.classNames :=
    fun _ inBees inHive => apart _ inBees inHive
  have undeclared : "Hive" ∉ bees.classNames := by
    decide
  obtain ⟨counts, -, others, -, -, either⟩ := collect_determines {} bees "Bee.as"
  refine ⟨?_, by decide, undeclared, others "Hive" undeclared, isDisjoint,
    either hive "Hive.as" isDisjoint⟩
  rw [counts]
  decide

end MemberIndex

end ScriptBridge
