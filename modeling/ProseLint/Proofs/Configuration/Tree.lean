import Mathlib.Tactic
import ProseLint.Configuration.Load

/-!
# The configuration that an element describes

A component element describes a tree: the named components among its child elements are the
children, the properties with a name and a value the attributes, and all other child elements are
passed over with everything inside them. In pre-order the nodes of a tree have consecutive numbers,
each child the first number behind the trees of the children before it.
-/
namespace ProseLint

theorem nodup_eraseDups {α : Type*} [BEq α] [LawfulBEq α] (l : List α) : l.eraseDups.Nodup := by
  induction hn : l.length using Nat.strong_induction_on generalizing l with
  | h n ih =>
    cases l with
    | nil => simp
    | cons a l =>
      rw [List.eraseDups_cons, List.nodup_cons]
      constructor
      · simp [List.mem_eraseDups]
      · have hle := List.length_filter_le (fun b => !b == a) l
        rw [List.length_cons] at hn
        exact ih _ (by omega) _ rfl

namespace Attributes

/-- The attributes that come from setting keys to values one after another: each key in the place of
its first occurrence, with the value of its last. -/
def ofPairs (ps : List (Text × Text)) : Attributes :=
  (ps.map Prod.fst).eraseDups.map fun key => (key, (ps.reverse.lookup key).getD [])

variable {key value : Text}

theorem map_ite_of_not_mem {keys : List Text} (hkey : key ∉ keys) (f : Text → Text) :
    (keys.map fun k => (k, if k = key then value else f k)) = keys.map fun k => (k, f k) := by
  refine List.map_congr_left fun k hk => ?_
  have hne : k ≠ key := fun he => hkey (he ▸ hk)
  rw [if_neg hne]

/-- Setting a key in a list that has each key once. -/
theorem set_map {keys : List Text} (hkeys : keys.Nodup) (f : Text → Text) :
    set key value (keys.map fun k => (k, f k)) =
      if key ∈ keys then keys.map fun k => (k, if k = key then value else f k)
      else (keys.map fun k => (k, f k)) ++ [(key, value)] := by
  induction keys with
  | nil => rfl
  | cons k keys ih =>
    obtain ⟨hk, hkeys⟩ := List.nodup_cons.mp hkeys
    by_cases he : k = key
    · subst he
      simp [set, map_ite_of_not_mem hk]
    · have hne : key ≠ k := fun h => he h.symm
      rw [List.map_cons, set, if_neg he, ih hkeys]
      by_cases hmem : key ∈ keys <;> simp [hmem, hne, he]

theorem ofPairs_concat (ps : List (Text × Text)) :
    ofPairs (ps ++ [(key, value)]) = set key value (ofPairs ps) := by
  have hlookup : ∀ k, ((ps ++ [(key, value)]).reverse.lookup k).getD [] =
      if k = key then value else (ps.reverse.lookup k).getD [] := by
    intro k
    rw [List.reverse_append, List.reverse_singleton, List.singleton_append, List.lookup_cons]
    by_cases hk : k = key
    · simp [hk]
    · simp [hk, beq_false_of_ne hk]
  rw [ofPairs, ofPairs, set_map (nodup_eraseDups _)]
  simp only [hlookup, List.map_append, List.map_cons, List.map_nil, List.eraseDups_append,
    List.mem_eraseDups]
  by_cases hmem : key ∈ ps.map Prod.fst
  · have hnone : [key].removeAll (ps.map Prod.fst) = [] := by simpa [List.removeAll] using hmem
    rw [if_pos hmem, hnone]
    simp
  · have hnew : [key].removeAll (ps.map Prod.fst) = [key] := by simpa [List.removeAll] using hmem
    rw [if_neg hmem, hnew, map_ite_of_not_mem (by simpa using hmem)]
    simp [List.eraseDups_cons]

theorem foldl_set_eq (ps : List (Text × Text)) :
    ps.foldl (fun as p => set p.1 p.2 as) [] = ofPairs ps := by
  induction ps using List.reverseRecOn with
  | nil => rfl
  | append_singleton ps p ih => rw [List.foldl_append, ih, ofPairs_concat]; rfl

end Attributes

namespace Configuration

open Xml (Element)

/-- A component with its attributes and the components inside it. -/
inductive Tree where
  | node (name : Text) (attributes : Attributes) (children : List Tree)

/-- The name of a component that has one. -/
def componentName? (e : Element) : Option Text :=
  if e.name = componentTag then e.attribute? "name".toList else none

/-- The name and the value of a property that has both. -/
def property? (e : Element) : Option (Text × Text) :=
  if e.name = propertyTag then
    match e.attribute? "name".toList, e.attribute? "value".toList with
    | some key, some value => some (key, value)
    | _, _ => none
  else none

mutual

/-- What an element describes under a name. -/
def treeOf (name : Text) : Element → Tree
  | .mk _ _ children _ =>
    .node name (Attributes.ofPairs (children.filterMap property?)) (treesOf children)

/-- What the named components among some elements describe, in their order. -/
def treesOf : List Element → List Tree
  | [] => []
  | e :: es =>
    match componentName? e with
    | some name => treeOf name e :: treesOf es
    | none => treesOf es

end

theorem treesOf_eq (es : List Element) :
    treesOf es = es.filterMap fun e => (componentName? e).map fun name => treeOf name e := by
  induction es with
  | nil => rw [treesOf, List.filterMap_nil]
  | cons e es ih =>
    rw [treesOf, List.filterMap_cons]
    cases componentName? e <;> simp [ih]

mutual

/-- The elements that are passed over inside an element, in the order of the document. -/
def passedOver : Element → List Element
  | .mk _ _ children _ => passedOverOf children

def passedOverOf : List Element → List Element
  | [] => []
  | e :: es =>
    (if (componentName? e).isSome then passedOver e
      else if (property? e).isSome then []
      else [e]) ++ passedOverOf es

end

/-- The remark on an element that is passed over. -/
def remark (e : Element) : LogLine :=
  .warn ("Skipping ".toList ++
    (if e.name = componentTag then tag componentTag ++ " without a name".toList
      else if e.name = propertyTag then tag propertyTag ++ " without name and value".toList
      else "unknown element ".toList ++ tag e.name) ++
    " at line ".toList ++ Text.ofNat e.row)

mutual

def Tree.size : Tree → ℕ
  | .node _ _ children => totalSize children + 1

def totalSize : List Tree → ℕ
  | [] => 0
  | t :: ts => t.size + totalSize ts

end

/-- The numbers of trees one after another, each the number of its first node. -/
def numbers (first : ℕ) : List Tree → List ℕ
  | [] => []
  | t :: ts => first :: numbers (first + t.size) ts

mutual

/-- The nodes of a tree in pre-order, numbered from `first` on. -/
def Tree.nodes (parent : Option ℕ) (first : ℕ) : Tree → List ConfigNode
  | .node name attributes children =>
    { name := name, attributes := attributes, parent := parent,
      children := numbers (first + 1) children } :: nodesOf first (first + 1) children

def nodesOf (parent first : ℕ) : List Tree → List ConfigNode
  | [] => []
  | t :: ts => t.nodes (some parent) first ++ nodesOf parent (first + t.size) ts

end

mutual

theorem length_nodes (parent : Option ℕ) (first : ℕ) : (t : Tree) →
    (t.nodes parent first).length = t.size
  | .node name attributes children => by
    rw [Tree.nodes, List.length_cons, length_nodesOf, Tree.size]

theorem length_nodesOf (parent first : ℕ) : (ts : List Tree) →
    (nodesOf parent first ts).length = totalSize ts
  | [] => by rw [nodesOf, totalSize, List.length_nil]
  | t :: ts => by
    rw [nodesOf, List.length_append, length_nodes _ _ t, length_nodesOf _ _ ts, totalSize]

end

theorem numbers_append (first : ℕ) (ts ts' : List Tree) :
    numbers first (ts ++ ts') = numbers first ts ++ numbers (first + totalSize ts) ts' := by
  induction ts generalizing first with
  | nil => simp [numbers, totalSize]
  | cons t ts ih => simp [numbers, totalSize, ih, Nat.add_assoc]

theorem nodesOf_append (parent first : ℕ) (ts ts' : List Tree) : nodesOf parent first (ts ++ ts') =
    nodesOf parent first ts ++ nodesOf parent (first + totalSize ts) ts' := by
  induction ts generalizing first with
  | nil => simp [nodesOf, totalSize]
  | cons t ts ih => simp [nodesOf, totalSize, ih, Nat.add_assoc]

end Configuration
end ProseLint
