import DjangoBoilerplate.Text

/-!
# Import statements of a Python module

Scripts under `scripts/` read modules with `ast.parse` and look at the import statements that
`ast.walk` finds in them. A syntax tree is modelled by its import statements and by where they lie;
`imported` says which modules a statement names, with relative imports resolved as Python does.
-/

namespace DjangoBoilerplate

namespace Imports

/-- `lineno` and `end_lineno` of a node. -/
structure Lines : Type where
  /-- `lineno` -/
  first : ℕ
  /-- `end_lineno` -/
  last : ℕ

/-- A node of a syntax tree: an import statement, or any other node with its children. The names
are those of the aliases, without `as`. -/
inductive Node : Type where
  /-- `ast.ImportFrom`: `from module import names`, with so many dots before the module -/
  | importFrom (module : Option Str) (names : List Str) (level : ℕ) (lines : Lines) : Node
  /-- `ast.Import`: `import names` -/
  | importNames (names : List Str) (lines : Lines) : Node
  /-- any other node -/
  | other (children : List Node) : Node

namespace Node

/-- `ast.iter_child_nodes(node)`, without the aliases of an import. -/
def children : Node → List Node
  | .importFrom .. => []
  | .importNames .. => []
  | .other children => children

/-- A node of the tree: the root or one below a child of it. -/
inductive Within : Node → Node → Prop where
  /-- the root -/
  | root (tree : Node) : Within tree tree
  /-- one below a child -/
  | child {node child tree : Node} : child ∈ tree.children → Within node child → Within node tree

end Node

/-! ## `ast.walk` -/

mutual

/-- How many nodes a tree has. -/
def size : Node → ℕ
  | .importFrom .. => 1
  | .importNames .. => 1
  | .other children => sizes children + 1

/-- How many nodes some trees have. -/
def sizes : List Node → ℕ
  | [] => 0
  | node :: nodes => size node + sizes nodes

end

theorem sizes_append (nodes nodes' : List Node) :
    sizes (nodes ++ nodes') = sizes nodes + sizes nodes' := by
  induction nodes with
  | nil => simp [sizes]
  | cons node nodes ih => rw [List.cons_append, sizes, sizes, ih, Nat.add_assoc]

theorem size_eq (node : Node) : size node = sizes node.children + 1 := by
  cases node <;> rfl

/-- `ast.walk`, on the queue of nodes still to be visited. -/
def walk : List Node → List Node
  | [] => []
  | node :: todo => node :: walk (todo ++ node.children)
termination_by todo => sizes todo
decreasing_by
  rw [sizes_append, sizes, size_eq]
  omega

/-- Every node below one in the queue is visited, and no others. -/
theorem mem_walk_iff {node : Node} {todo : List Node} :
    node ∈ walk todo ↔ ∃ tree ∈ todo, node.Within tree := by
  induction todo using walk.induct with
  | case1 => simp [walk]
  | case2 next todo ih =>
    rw [walk, List.mem_cons, ih]
    constructor
    · rintro (rfl | ⟨tree, htree, hwithin⟩)
      · exact ⟨node, List.mem_cons_self, .root node⟩
      · rcases List.mem_append.mp htree with htree | hchild
        · exact ⟨tree, List.mem_cons_of_mem next htree, hwithin⟩
        · exact ⟨next, List.mem_cons_self, .child hchild hwithin⟩
    · rintro ⟨tree, htree, hwithin⟩
      rcases List.mem_cons.mp htree with rfl | htree
      · cases hwithin with
        | root => exact .inl rfl
        | child hchild hwithin => exact .inr ⟨_, List.mem_append_right _ hchild, hwithin⟩
      · exact .inr ⟨tree, List.mem_append_left _ htree, hwithin⟩

/-! ## What is imported -/

/-- The module a `from` statement names, as a path from the top, in a module of the given package.
There is none if the dots lead out of the top-level package. -/
def resolve (package : List Str) : Option Str → ℕ → Option (List Str)
  | none, 0 => none
  | some module, 0 => some (Str.split '.' module)
  | module, level + 1 =>
    if level < package.length then
      some (package.take (package.length - level) ++ (module.map (Str.split '.')).getD [])
    else none

/-- The modules a node imports: those it names, and for each name of a `from` statement the
submodule it may be. -/
def imported (package : List Str) : Node → List (List Str)
  | .importFrom module names level _ =>
    match resolve package module level with
    | some base => base :: names.map fun name => base ++ [name]
    | none => []
  | .importNames names _ => names.map (Str.split '.')
  | .other _ => []

end Imports

end DjangoBoilerplate
