import ScriptBridge.Tree.Node

/-!
# Children and descendants

The children of a node are its parts in the order of the source text.  Of two
spellings of type arguments only one counts, and decorators and the names after
an interface's `implements` are not visited.
-/

namespace ScriptBridge

/-- The type arguments under either of their two names. -/
def chosenTypeArguments {Part : Type}
    (typeParameters typeArguments : Option Part) : Option Part :=
  typeArguments <|> typeParameters

/-- The children of a shape in source order. -/
def Shape.children {Part : Type} : Shape Part → List Part
  | .function _ _ name params body returnType =>
      name.toList ++ params ++ returnType.toList ++ body.toList
  | .classDefinition _ _ name superClass implementing body _ =>
      name.toList ++ superClass.toList ++ implementing ++ [body]
  | .classProperty _ key value declaredType _ =>
      [key] ++ declaredType.toList ++ value.toList
  | .call _ callee arguments _ typeParameters typeArguments =>
      [callee] ++ (chosenTypeArguments typeParameters typeArguments).toList ++ arguments
  | .loop .doWhile test body => [body, test]
  | .interface name body extending _ => [name] ++ extending ++ [body]
  | .heritage _ expression typeParameters typeArguments =>
      [expression] ++ (chosenTypeArguments typeParameters typeArguments).toList
  | .typeReference name typeParameters typeArguments =>
      [name] ++ (chosenTypeArguments typeParameters typeArguments).toList
  | other => other.parts

namespace Node

/-- The children of a node in source order. -/
def children (node : Node) : List Node :=
  node.shape.children

/-- A node and all nodes below it, each before its children. -/
def descendants (node : Node) : List Node :=
  node :: node.fold fun _ shape =>
    shape.children.flatMap fun child => child.node :: child.result

/-- Look at a child, unless something was found in front of it: ask whether it is
wanted, and if it is not, whether to look below it. -/
def seekChild {Effect : Type → Type} [Monad Effect] (wanted enters : Node → Effect Bool)
    (found : Option Node) (child : Folded (Effect (Option Node))) :
    Effect (Option Node) := do
  if found.isSome then return found
  else if ← wanted child.node then return some child.node
  else if ← enters child.node then child.result
  else return none

/-- Look through the children of a node and what is below them for the first node
that is wanted.  Both questions may have effects of their own. -/
def seek {Effect : Type → Type} [Monad Effect] (wanted enters : Node → Effect Bool) :
    Node → Effect (Option Node) :=
  fold fun _ shape => shape.children.foldlM (seekChild wanted enters) none

/-- What a search came to: the node found, and the nodes it asked about, in order. -/
structure SearchResult where
  found : Option Node
  asked : List Node

/-- How many nodes a search asked about. -/
def SearchResult.visited (result : SearchResult) : Nat :=
  result.asked.length

/-- Ask whether a node is wanted and remember it, the latest in front. -/
def askAbout (wanted : Node → Bool) (node : Node) : StateM (List Node) Bool := do
  modify (node :: ·)
  return wanted node

/-- Search the proper descendants in order for the first wanted one, without
looking below nodes that `enters` refuses. -/
def search (wanted enters : Node → Bool) (node : Node) : SearchResult :=
  let (found, asked) := (node.seek (askAbout wanted) fun other => return enters other).run []
  ⟨found, asked.reverse⟩

/-- Whether some proper descendant is wanted. -/
def hasDescendant (wanted : Node → Bool) (node : Node) : Bool :=
  (node.search wanted fun _ => true).found.isSome

end Node

end ScriptBridge
