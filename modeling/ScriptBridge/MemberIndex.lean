import ScriptBridge.Json.Record
import ScriptBridge.Tree.Children

/-!
# The index of class members

The index knows every class by name: the file that declares it, its superclass,
and the names of its members.  It is collected from whole syntax trees and tells
which members a class has by itself or inherits.
-/

namespace ScriptBridge

/-- What the index knows of a class. -/
structure ClassEntry where
  name : String
  file : String
  superClass : Option String := none
  properties : List String := []
  methods : List String := []
  deriving DecidableEq, Repr

/-- All classes by name, in the order in which they were met. -/
structure MemberIndex where
  classes : OrderedMap String ClassEntry := {}
  deriving DecidableEq, Repr

/-- The last name of an identifier or of a dotted member access. -/
def Node.lastName? : Node → Option String
  | ⟨_, .identifier name _ _⟩ => some name
  | ⟨_, .member _ property false _⟩ => property.lastName?
  | _ => none

namespace ClassEntry

/-- Whether a class declares a member. -/
def hasMember (entry : ClassEntry) (member : String) : Bool :=
  entry.properties.contains member || entry.methods.contains member

/-- Record a property. -/
def addProperty (entry : ClassEntry) (name : String) : ClassEntry :=
  { entry with properties := entry.properties ++ [name] }

/-- Record a method once; constructors are not recorded. -/
def addMethod (entry : ClassEntry) (name : String) : ClassEntry :=
  if name = "constructor" ∨ name ∈ entry.methods then entry
  else { entry with methods := entry.methods ++ [name] }

/-- Record one member of a class body. -/
def addMember (entry : ClassEntry) (member : Node) : ClassEntry :=
  match member.shape with
  | .classProperty _ key _ _ _ =>
      match key.identifier? with
      | some name => entry.addProperty name
      | none => entry
  | .method _ _ key _ =>
      match key.identifier? with
      | some name => entry.addMethod name
      | none => entry
  | _ => entry

/-- The entry of a named class declaration. -/
def ofNode? (file : String) (node : Node) : Option ClassEntry :=
  match node.shape with
  | .classDefinition .declaration _ name superClass _ body _ =>
      (name.bind Node.identifier?).map fun className =>
        body.children.foldl addMember
          { name := className, file, superClass := superClass.bind Node.lastName? }
  | _ => none

/-- The text of an entry: a heading and two indented lists. -/
def render (entry : ClassEntry) : String :=
  entry.name ++ " (" ++ entry.file ++ ")" ++
    (match entry.superClass with
      | some superClass => " extends " ++ superClass
      | none => "") ++
    "\n    properties: " ++ String.intercalate ", " entry.properties ++
    "\n    methods: " ++ String.intercalate ", " entry.methods ++ "\n"

/-- The fields of a written entry. -/
def record : Record JsonText ClassEntry :=
  ClassEntry.mk <$> .required "name" JsonText.toText <*> .required "file" JsonText.toText <*>
    .withDefault "superClass" none JsonText.toMaybeText <*>
    .withDefault "properties" [] (JsonText.toList JsonText.toText) <*>
    .withDefault "methods" [] (JsonText.toList JsonText.toText)

/-- Read an entry. -/
def ofText : JsonText → Except DataError ClassEntry :=
  record.ofText "struct ClassEntry"

/-- Write an entry. -/
def toJson (entry : ClassEntry) : Json :=
  .object [
    ("name", .string entry.name),
    ("file", .string entry.file),
    ("superClass", Json.ofOption .string entry.superClass),
    ("properties", .strings entry.properties),
    ("methods", .strings entry.methods)]

end ClassEntry

namespace MemberIndex

/-- The number of classes. -/
def size (index : MemberIndex) : Nat :=
  index.classes.size

/-- The class with the given name. -/
def find? (index : MemberIndex) (name : String) : Option ClassEntry :=
  index.classes.find? name

/-- Put in a class; a later one takes the place of an earlier one. -/
def insert (index : MemberIndex) (entry : ClassEntry) : MemberIndex :=
  ⟨index.classes.insert entry.name entry⟩

/-- The entries of all named class declarations of a tree, outer ones first. -/
def declaredIn (file : String) (tree : Node) : List ClassEntry :=
  tree.descendants.filterMap (ClassEntry.ofNode? file)

/-- Put in all classes that a tree declares. -/
def collect (index : MemberIndex) (tree : Node) (file : String) : MemberIndex :=
  (declaredIn file tree).foldl insert index

/-- Put in all classes that a tree declares one by one, and count them. -/
def collectCounting (index : MemberIndex) (tree : Node) (file : String) : MemberIndex × Nat :=
  (declaredIn file tree).foldl
    (fun (index, found) entry => (index.insert entry, found + 1)) (index, 0)

/-- The class with the given name and its ancestors, at most so many. -/
def lineage (index : MemberIndex) : Nat → String → List ClassEntry
  | 0, _ => []
  | bound + 1, name =>
      match index.find? name with
      | none => []
      | some entry =>
          entry ::
            match entry.superClass with
            | some superClass => index.lineage bound superClass
            | none => []

/-- Whether a class or one of its ancestors declares a member.  A line of
ancestors with more entries than the index has classes only repeats itself. -/
def inherits (index : MemberIndex) (name member : String) : Bool :=
  (index.lineage index.size name).any fun entry => entry.hasMember member

/-- The text of the whole index. -/
def render (index : MemberIndex) : String :=
  String.join (index.classes.values.map ClassEntry.render)

/-- The fields of a written index. -/
def record : Record JsonText MemberIndex :=
  MemberIndex.mk <$> .required "classes" (JsonText.toMap ClassEntry.ofText)

/-- Read an index. -/
def read (source : String) : Except DataError MemberIndex :=
  JsonText.readWhole (record.ofText "struct MemberIndex") source

/-- Write an index. -/
def toJson (index : MemberIndex) : Json :=
  .object [("classes",
    .object (index.classes.entries.map fun (name, entry) => (name, entry.toJson)))]

/-- The JSON text of an index, one entry on each line. -/
def pretty (index : MemberIndex) : String :=
  index.toJson.pretty

end MemberIndex

end ScriptBridge
