import ProseLint.Proofs.Configuration.Tree

/-!
# Loading a configuration

Loading the child elements of a component lays the tree of the component out as nodes in pre-order,
and leaves a remark on each element that is passed over. Nodes are added as the last child of a node
that is there, so parents and children always agree.
-/
namespace ProseLint

theorem modify_append_left {α : Type*} {f : α → α} {l m : List α} {i : ℕ} (hi : i < l.length) :
    (l ++ m).modify i f = l.modify i f ++ m := by
  induction l generalizing i with
  | nil => simp at hi
  | cons a l ih =>
    cases i with
    | zero => simp
    | succ i => simpa using ih (by simpa using hi)

namespace Configuration

open Xml (Element)

section

variable {parent : ℕ} {s : Loading} {e : Element}

theorem addElement_eq (parent : ℕ) (s : Loading) (e : Element) : Loading.addElement parent s e =
    if e.name = componentTag then
      match e.attribute? "name".toList with
      | some name => Loading.addAll s.configuration.size
        { s with configuration := s.configuration.addChild parent name } e.children
      | none => s.skip (tag componentTag ++ " without a name".toList) e.row
    else if e.name = propertyTag then
      match e.attribute? "name".toList, e.attribute? "value".toList with
      | some key, some value =>
        { s with configuration := s.configuration.setAttribute parent key value }
      | _, _ => s.skip (tag propertyTag ++ " without name and value".toList) e.row
    else s.skip ("unknown element ".toList ++ tag e.name) e.row := by
  cases e
  rw [Loading.addElement]
  rfl

theorem addElement_component {name : Text} (h : componentName? e = some name) :
    Loading.addElement parent s e = Loading.addAll s.configuration.size
      { s with configuration := s.configuration.addChild parent name } e.children := by
  unfold componentName? at h
  split at h
  · rename_i hname
    rw [addElement_eq, if_pos hname, h]
  · simp at h

theorem addElement_property {key value : Text} (h : property? e = some (key, value)) :
    Loading.addElement parent s e =
      { s with configuration := s.configuration.setAttribute parent key value } := by
  unfold property? at h
  split at h
  · rename_i hname
    have hne : e.name ≠ componentTag := by
      rw [hname]
      decide
    rw [addElement_eq, if_neg hne, if_pos hname]
    cases hkey : e.attribute? "name".toList with
    | none =>
      rw [hkey] at h
      simp at h
    | some k =>
      cases hvalue : e.attribute? "value".toList with
      | none =>
        rw [hkey, hvalue] at h
        simp at h
      | some v =>
        rw [hkey, hvalue] at h
        obtain ⟨rfl, rfl⟩ : k = key ∧ v = value := by simpa using h
        rfl
  · simp at h

theorem addElement_passedOver (hcomponent : componentName? e = none)
    (hproperty : property? e = none) :
    Loading.addElement parent s e = { s with log := s.log ++ [remark e] } := by
  unfold componentName? at hcomponent
  unfold property? at hproperty
  rw [addElement_eq, remark]
  by_cases hname : e.name = componentTag
  · rw [if_pos hname] at hcomponent
    rw [if_pos hname, if_pos hname, hcomponent]
    rfl
  · rw [if_neg hname, if_neg hname]
    by_cases hproper : e.name = propertyTag
    · rw [if_pos hproper] at hproperty
      rw [if_pos hproper, if_pos hproper]
      cases hkey : e.attribute? "name".toList with
      | none => rfl
      | some k =>
        cases hvalue : e.attribute? "value".toList with
        | none => rfl
        | some v =>
          rw [hkey, hvalue] at hproperty
          simp at hproperty
    · rw [if_neg hproper, if_neg hproper]
      rfl

end

/-- A node with some more attributes and children. -/
def grow (properties : List (Text × Text)) (children : List ℕ) (n : ConfigNode) : ConfigNode :=
  { n with
    attributes := properties.foldl (fun as p => as.set p.1 p.2) n.attributes
    children := n.children ++ children }

/-- What loading elements into a node makes of the nodes and the log: the node grows, new nodes are
added at the end, and there is a remark on each element that is passed over. -/
structure Takes (parent : ℕ) (properties : List (Text × Text)) (trees : List Tree)
    (passed : List Element) (s s' : Loading) : Prop where
  nodes_eq : s'.configuration.nodes =
    s.configuration.nodes.modify parent (grow properties (numbers s.configuration.size trees)) ++
      nodesOf parent s.configuration.size trees
  log_eq : s'.log = s.log ++ passed.map remark

namespace Takes

variable {parent : ℕ} {ps ps' : List (Text × Text)} {ts ts' : List Tree} {es es' : List Element}
  {s s' s'' : Loading}

theorem refl (parent : ℕ) (s : Loading) : Takes parent [] [] [] s s := by
  have hgrow : grow [] [] = id := by
    funext n
    simp [grow]
  exact ⟨by simp [numbers, nodesOf, hgrow], by simp⟩

theorem size_eq (h : Takes parent ps ts es s s') :
    s'.configuration.size = s.configuration.size + totalSize ts := by
  rw [size, h.nodes_eq, List.length_append, List.length_modify, length_nodesOf, size]

theorem trans (h : Takes parent ps ts es s s') (h' : Takes parent ps' ts' es' s' s'')
    (hp : parent < s.configuration.size) :
    Takes parent (ps ++ ps') (ts ++ ts') (es ++ es') s s'' := by
  constructor
  · have hgrow : grow ps' (numbers (s.configuration.size + totalSize ts) ts') ∘
        grow ps (numbers s.configuration.size ts) =
          grow (ps ++ ps') (numbers s.configuration.size (ts ++ ts')) := by
      funext n
      simp [grow, numbers_append]
    rw [h'.nodes_eq, h.size_eq, h.nodes_eq, modify_append_left (by simpa [size] using hp),
      List.modify_modify_eq, hgrow, List.append_assoc, ← nodesOf_append]
  · rw [h'.log_eq, h.log_eq, List.append_assoc, List.map_append]

/-- A new node is the last one, and it is there that its children are added. -/
theorem component {name : Text} (h : Takes s.configuration.size ps ts es
    { s with configuration := s.configuration.addChild parent name } s') :
    Takes parent [] [.node name (.ofPairs ps) ts] es s s' := by
  have hsize : (s.configuration.addChild parent name).size = s.configuration.size + 1 := by
    simp [size, addChild]
  have hadded : (s.configuration.addChild parent name).nodes =
      s.configuration.nodes.modify parent (grow [] [s.configuration.size]) ++
        [{ name := name, parent := some parent }] := rfl
  have hlast : ∀ (l : List ConfigNode) (n : ConfigNode) (f : ConfigNode → ConfigNode),
      l.length = s.configuration.size →
        (l ++ [n]).modify s.configuration.size f = l ++ [f n] := by
    intro l n f hl
    simp [List.modify_eq_take_drop, ← hl]
  refine ⟨?_, h.log_eq⟩
  rw [h.nodes_eq, hsize, hadded, hlast _ _ _ (by simp [size])]
  simp [numbers, nodesOf, Tree.nodes, grow, Attributes.foldl_set_eq]

theorem property (parent : ℕ) (s : Loading) (p : Text × Text) : Takes parent [p] [] [] s
    { s with configuration := s.configuration.setAttribute parent p.1 p.2 } := by
  have hgrow : grow [p] [] = fun n => { n with attributes := n.attributes.set p.1 p.2 } := by
    funext n
    simp [grow]
  exact ⟨by simp [setAttribute, numbers, nodesOf, hgrow], by simp⟩

theorem passOver (parent : ℕ) (s : Loading) (e : Element) :
    Takes parent [] [] [e] s { s with log := s.log ++ [remark e] } :=
  ⟨(Takes.refl parent s).nodes_eq, rfl⟩

end Takes

theorem property?_eq_none {e : Element} {name : Text} (h : componentName? e = some name) :
    property? e = none := by
  unfold componentName? at h
  split at h
  · rename_i hname
    have hne : e.name ≠ propertyTag := by
      rw [hname]
      decide
    rw [property?, if_neg hne]
  · simp at h

mutual

theorem takes_addElement (parent : ℕ) (s : Loading) :
    (e : Element) → Takes parent (property? e).toList
      ((componentName? e).map fun name => treeOf name e).toList
      (passedOverOf [e]) s (Loading.addElement parent s e)
  | .mk name attributes children row => by
    cases hcomponent : componentName? (.mk name attributes children row) with
    | some nodeName =>
      have hp : s.configuration.size < (s.configuration.addChild parent nodeName).size := by
        simp [size, addChild]
      have hinside :=
        takes_addAll (s := { s with configuration := s.configuration.addChild parent nodeName })
          hp children
      rw [addElement_component hcomponent, property?_eq_none hcomponent, Element.children]
      simpa [treeOf, passedOverOf, passedOver, hcomponent] using hinside.component
    | none =>
      cases hproperty : property? (.mk name attributes children row) with
      | some p =>
        rw [addElement_property hproperty]
        simpa [passedOverOf, hcomponent, hproperty] using Takes.property parent s p
      | none =>
        rw [addElement_passedOver hcomponent hproperty]
        simpa [passedOverOf, hcomponent, hproperty] using Takes.passOver parent s _

theorem takes_addAll {parent : ℕ} {s : Loading} (hp : parent < s.configuration.size) :
    (es : List Element) → Takes parent (es.filterMap property?) (treesOf es) (passedOverOf es) s
      (Loading.addAll parent s es)
  | [] => by
    rw [Loading.addAll, treesOf, passedOverOf]
    exact .refl parent s
  | e :: es => by
    have hfirst := takes_addElement parent s e
    have hsize : parent < (Loading.addElement parent s e).configuration.size := by
      rw [hfirst.size_eq]
      omega
    have htrans := hfirst.trans (takes_addAll hsize es) hp
    rw [Loading.addAll]
    have hproperties : (e :: es).filterMap property? =
        (property? e).toList ++ es.filterMap property? := by
      rw [List.filterMap_cons]
      cases property? e <;> rfl
    have htrees : treesOf (e :: es) =
        ((componentName? e).map fun name => treeOf name e).toList ++ treesOf es := by
      rw [treesOf_eq, treesOf_eq, List.filterMap_cons]
      cases componentName? e <;> rfl
    have hpassed : passedOverOf (e :: es) = passedOverOf [e] ++ passedOverOf es := by
      simp [passedOverOf]
    rw [hproperties, htrees, hpassed]
    exact htrans

end

/-! ## Links -/

def parentOf (i : ℕ) (c : Configuration) : Option ℕ := (c.node? i).bind (·.parent)

def childNumbers (i : ℕ) (c : Configuration) : List ℕ := ((c.node? i).map (·.children)).getD []

/-- The root has no parent, every other node has one with a lower number, and it is there, and in no
other place, that the node is a child. -/
structure Linked (c : Configuration) : Prop where
  root : c.parentOf 0 = none
  child : ∀ i, 0 < i → i < c.size → ∃ p < i, c.parentOf i = some p ∧
    ∀ j, (c.childNumbers j).count i = if j = p then 1 else 0
  bounded : ∀ j, ∀ i ∈ c.childNumbers j, 0 < i ∧ i < c.size

section

variable {c : Configuration} {parent : ℕ} {name : Text}

@[simp] theorem size_addChild (parent : ℕ) (name : Text) (c : Configuration) :
    (c.addChild parent name).size = c.size + 1 := by simp [size, addChild]

@[simp] theorem size_setAttribute (i : ℕ) (key value : Text) (c : Configuration) :
    (c.setAttribute i key value).size = c.size := by simp [size, setAttribute]

theorem node?_addChild (i : ℕ) : (c.addChild parent name).node? i =
    if i = c.size then some { name := name, parent := some parent }
    else (c.node? i).map fun n =>
      if parent = i then { n with children := n.children ++ [c.size] } else n := by
  rw [node?, addChild]
  rcases lt_trichotomy i c.size with h | rfl | h
  · rw [if_neg h.ne, List.getElem?_append_left (by simpa [size] using h), List.getElem?_modify]
    rfl
  · simp [size]
  · have hnone : c.node? i = none := List.getElem?_eq_none (by simpa [size] using h.le)
    rw [if_neg h.ne', hnone, Option.map_none, List.getElem?_eq_none]
    simpa [size] using h

theorem parentOf_addChild (i : ℕ) : (c.addChild parent name).parentOf i =
    if i = c.size then some parent else c.parentOf i := by
  rw [parentOf, node?_addChild, parentOf]
  by_cases hi : i = c.size
  · simp [hi]
  · rw [if_neg hi, if_neg hi]
    cases c.node? i with
    | none => rfl
    | some n => by_cases hp : parent = i <;> simp [hp]

theorem childNumbers_addChild (hp : parent < c.size) (j : ℕ) :
    (c.addChild parent name).childNumbers j =
      c.childNumbers j ++ if j = parent then [c.size] else [] := by
  rw [childNumbers, node?_addChild, childNumbers]
  by_cases hj : j = c.size
  · have hnone : c.node? j = none := List.getElem?_eq_none (by simp [hj, size])
    have hne : j ≠ parent := by omega
    simp [hj, hj ▸ hnone, hj ▸ hne]
  · rw [if_neg hj]
    by_cases hjp : j = parent
    · subst hjp
      have hsome : c.node? j = some c.nodes[j] := List.getElem?_eq_getElem hp
      simp [hsome]
    · have hne : parent ≠ j := fun h => hjp h.symm
      simp [hjp, hne]

theorem node?_setAttribute (i j : ℕ) (key value : Text) : (c.setAttribute i key value).node? j =
    (c.node? j).map fun n =>
      if i = j then { n with attributes := n.attributes.set key value } else n := by
  rw [node?, setAttribute, List.getElem?_modify]
  rfl

theorem parentOf_setAttribute (i j : ℕ) (key value : Text) :
    (c.setAttribute i key value).parentOf j = c.parentOf j := by
  rw [parentOf, node?_setAttribute, parentOf]
  cases c.node? j with
  | none => rfl
  | some n => by_cases h : i = j <;> simp [h]

theorem childNumbers_setAttribute (i j : ℕ) (key value : Text) :
    (c.setAttribute i key value).childNumbers j = c.childNumbers j := by
  rw [childNumbers, node?_setAttribute, childNumbers]
  cases c.node? j with
  | none => rfl
  | some n => by_cases h : i = j <;> simp [h]

namespace Linked

theorem ofRoot (name : Text) : (ofRoot name).Linked := by
  have hchildren : ∀ j, (Configuration.ofRoot name).childNumbers j = [] := by
    intro j
    cases j <;> rfl
  refine ⟨rfl, fun i hpos hi => ?_, fun j i hi => ?_⟩
  · simp only [size, Configuration.ofRoot, List.length_singleton] at hi
    omega
  · rw [hchildren] at hi
    simp at hi

/-- The new node has the highest number, so it has been no child before. -/
theorem addChild (h : c.Linked) (hp : parent < c.size) (name : Text) :
    (c.addChild parent name).Linked := by
  have hnew : ∀ j, (c.childNumbers j).count c.size = 0 := by
    intro j
    rw [List.count_eq_zero]
    exact fun hmem => (h.bounded j _ hmem).2.ne rfl
  constructor
  case root =>
    rw [parentOf_addChild, if_neg (by omega)]
    exact h.root
  case child =>
    intro i hpos hi
    rw [size_addChild] at hi
    rw [parentOf_addChild]
    rcases Nat.lt_succ_iff_lt_or_eq.mp hi with hi | rfl
    · obtain ⟨p, hlt, hparent, hcount⟩ := h.child i hpos hi
      refine ⟨p, hlt, by rw [if_neg hi.ne, hparent], fun j => ?_⟩
      have hne : c.size ≠ i := by omega
      rw [childNumbers_addChild hp, List.count_append, hcount]
      split <;> split <;> simp [hne]
    · refine ⟨parent, hp, if_pos rfl, fun j => ?_⟩
      rw [childNumbers_addChild hp, List.count_append, hnew]
      split <;> simp
  case bounded =>
    intro j i hi
    rw [childNumbers_addChild hp, List.mem_append] at hi
    rw [size_addChild]
    rcases hi with hi | hi
    · have := h.bounded j i hi
      omega
    · split at hi
      · obtain rfl : i = c.size := by simpa using hi
        omega
      · simp at hi

theorem setAttribute (h : c.Linked) (i : ℕ) (key value : Text) :
    (c.setAttribute i key value).Linked := by
  constructor
  · rw [parentOf_setAttribute]
    exact h.root
  · intro i hpos hi
    simp only [parentOf_setAttribute, childNumbers_setAttribute]
    exact h.child i hpos (by simpa using hi)
  · intro j i hi
    rw [childNumbers_setAttribute] at hi
    simpa using h.bounded j i hi

end Linked

end

mutual

theorem linked_addElement {parent : ℕ} {s : Loading} (h : s.configuration.Linked)
    (hp : parent < s.configuration.size) :
    (e : Element) → (Loading.addElement parent s e).configuration.Linked
  | .mk name attributes children row => by
    cases hcomponent : componentName? (.mk name attributes children row) with
    | some nodeName =>
      rw [addElement_component hcomponent]
      exact linked_addAll (h.addChild hp nodeName) (by simp) children
    | none =>
      cases hproperty : property? (.mk name attributes children row) with
      | some p =>
        rw [addElement_property hproperty]
        exact h.setAttribute parent p.1 p.2
      | none =>
        rw [addElement_passedOver hcomponent hproperty]
        exact h

theorem linked_addAll {parent : ℕ} {s : Loading} (h : s.configuration.Linked)
    (hp : parent < s.configuration.size) :
    (es : List Element) → (Loading.addAll parent s es).configuration.Linked
  | [] => by
    rw [Loading.addAll]
    exact h
  | e :: es => by
    rw [Loading.addAll]
    refine linked_addAll (linked_addElement h hp e) ?_ es
    rw [(takes_addElement parent s e).size_eq]
    omega

end

/-! ## What is loaded -/

mutual

/-- Going down the lists of children from a node, whose parent is given, one meets a tree, and in
pre-order the numbers `is`. -/
inductive Holds (c : Configuration) : Option ℕ → ℕ → Tree → List ℕ → Prop
  | node {i : ℕ} {n : ConfigNode} {ts : List Tree} {is : List ℕ} (found : c.node? i = some n)
      (down : HoldsAll c i n.children ts is) :
      Holds c n.parent i (.node n.name n.attributes ts) (i :: is)

inductive HoldsAll (c : Configuration) : ℕ → List ℕ → List Tree → List ℕ → Prop
  | nil (p : ℕ) : HoldsAll c p [] [] []
  | cons {p i : ℕ} {t : Tree} {ts : List Tree} {is js ks : List ℕ} (first : Holds c (some p) i t is)
      (rest : HoldsAll c p js ts ks) : HoldsAll c p (i :: js) (t :: ts) (is ++ ks)

end

mutual

theorem holds_of_nodes {c : Configuration} (before after : List ConfigNode) (parent : Option ℕ) :
    (t : Tree) → c.nodes = before ++ t.nodes parent before.length ++ after →
      Holds c parent before.length t (List.range' before.length t.size)
  | .node name attributes children, h => by
    rw [Tree.nodes] at h
    have hfound : c.node? before.length =
        some ⟨name, attributes, parent, numbers (before.length + 1) children⟩ := by
      simp [node?, h]
    rw [Tree.size, List.range'_succ]
    refine .node hfound ?_
    have hdown := holdsAll_of_nodes (c := c)
      (before ++ [⟨name, attributes, parent, numbers (before.length + 1) children⟩]) after
      before.length children (by simp [h])
    simpa using hdown

theorem holdsAll_of_nodes {c : Configuration} (before after : List ConfigNode) (parent : ℕ) :
    (ts : List Tree) → c.nodes = before ++ nodesOf parent before.length ts ++ after →
      HoldsAll c parent (numbers before.length ts) ts (List.range' before.length (totalSize ts))
  | [], _ => by
    rw [numbers, totalSize]
    exact .nil parent
  | t :: ts, h => by
    rw [nodesOf] at h
    have hlength : (before ++ t.nodes (some parent) before.length).length =
        before.length + t.size := by
      rw [List.length_append, length_nodes]
    have hfirst := holds_of_nodes (c := c) before
      (nodesOf parent (before.length + t.size) ts ++ after) (some parent) t (by simp [h])
    have hrest := holdsAll_of_nodes (c := c) (before ++ t.nodes (some parent) before.length) after
      parent ts (by simp [h, hlength])
    rw [hlength] at hrest
    rw [numbers, totalSize, ← List.range'_append_1]
    exact .cons hfirst hrest

end

/-- The element of the configuration: the document element if it is a component, or else the first
component inside it. -/
def Chosen (document e : Element) : Prop :=
  document.name = componentTag ∧ e = document ∨
    document.name ≠ componentTag ∧
      document.children.find? (fun child => child.name == componentTag) = some e

theorem component?_eq_some_iff {document e : Element} :
    (component? document).1 = some e ↔ Chosen document e := by
  unfold component? Chosen
  by_cases h : document.name = componentTag
  · rw [if_pos h]
    simp only [h, Option.some.injEq, ne_eq, not_true, true_and, false_and, or_false]
    exact eq_comm
  · rw [if_neg h]
    dsimp only
    rw [List.head?_filter]
    simp only [h, false_and, false_or, ne_eq, not_false_eq_true, true_and]

/-- What loading a document element gives. -/
structure LoadSpec (document : Element) (result : Option Configuration × List LogLine) : Prop where
  isSome_iff : result.1.isSome = true ↔
    ∃ e name, Chosen document e ∧ e.attribute? "name".toList = some name
  /-- The nodes in the order of their numbers are the pre-order of the tree that the element
  describes, and the remarks are on the elements that it passes over. -/
  mirrors : ∀ c, result.1 = some c → ∃ e name, Chosen document e ∧
    e.attribute? "name".toList = some name ∧
    c.Holds none 0 (treeOf name e) (List.range c.size) ∧ c.Linked ∧
    ∃ done, done.severity = .debug ∧
      result.2 = (component? document).2 ++ (passedOver e).map remark ++ [done]

/-- Loading the inside of the chosen element into a root of its own. -/
theorem nodes_ofRoot (name : Text) (log : List LogLine) : (e : Element) →
    (Loading.addAll 0 ⟨ofRoot name, log⟩ e.children).configuration.nodes =
        (treeOf name e).nodes none 0 ∧
      (Loading.addAll 0 ⟨ofRoot name, log⟩ e.children).log = log ++ (passedOver e).map remark
  | .mk tagName attributes children row => by
    have hp : 0 < (ofRoot name).size := by simp [size, ofRoot]
    have htakes := takes_addAll (s := ⟨ofRoot name, log⟩) hp children
    rw [Element.children, treeOf, passedOver]
    refine ⟨?_, htakes.log_eq⟩
    rw [htakes.nodes_eq, Tree.nodes]
    simp [ofRoot, grow, size, Attributes.foldl_set_eq]

theorem loadSpec_ofElement (document : Element) : LoadSpec document (ofElement document) := by
  unfold ofElement
  cases hcomponent : component? document with
  | mk chosen log =>
    cases chosen with
    | none =>
      have hnone : ∀ e, ¬Chosen document e := by
        intro e he
        rw [← component?_eq_some_iff, hcomponent] at he
        simp at he
      exact ⟨by simp [hnone], by simp⟩
    | some e =>
      have hchosen : ∀ e', Chosen document e' ↔ e' = e := by
        intro e'
        rw [← component?_eq_some_iff, hcomponent, Option.some.injEq, eq_comm]
      dsimp only
      cases hname : e.attribute? "name".toList with
      | none =>
        refine ⟨⟨by simp, ?_⟩, by simp⟩
        rintro ⟨e', name, he, h⟩
        rw [(hchosen e').mp he, hname] at h
        simp at h
      | some name =>
        obtain ⟨hnodes, hlog⟩ := nodes_ofRoot name log e
        have hlinked : (Loading.addAll 0 ⟨ofRoot name, log⟩ e.children).configuration.Linked :=
          linked_addAll (.ofRoot name) (by simp [size, ofRoot]) e.children
        refine ⟨⟨fun _ => ⟨e, name, (hchosen e).mpr rfl, hname⟩, fun _ => rfl⟩, ?_⟩
        intro c hc
        obtain rfl : _ = c := Option.some.inj hc
        refine ⟨e, name, (hchosen e).mpr rfl, hname, ?_, hlinked, ?_⟩
        · have hholds := holds_of_nodes [] [] none (treeOf name e)
            (c := (Loading.addAll 0 ⟨ofRoot name, log⟩ e.children).configuration)
            (by simpa using hnodes)
          rw [size, hnodes, length_nodes, List.range_eq_range']
          exact hholds
        · dsimp only
          rw [hcomponent, hlog]
          refine ⟨_, ?_, rfl⟩
          rfl

theorem exists_parse_of_load {source : Text} (h : (load source).1.isSome = true) :
    ∃ document, Xml.parse? source = some document := by
  unfold load at h
  cases hparse : Xml.parse? source with
  | none =>
    rw [hparse] at h
    simp at h
  | some document => exact ⟨document, rfl⟩

/-- The configuration of a document element mirrors the chosen component, and a text has the
configuration of its document element. -/
theorem load_mirrors (document : Element) : LoadSpec document (ofElement document) ∧
    ∀ source, Xml.parse? source = some document → load source = ofElement document := by
  refine ⟨loadSpec_ofElement document, fun source hparse => ?_⟩
  rw [load, hparse]

/-- A root with a property given twice, a component inside, and an unnamed one, which is dropped
with its inside. -/
def nested : Text :=
  ("<component name='a'><property name='k' value='1'/><component name='b'><x/></component>" ++
    "<component><x/></component><property name='k' value='2'/></component>").toList

theorem load_nested : load nested =
    (some ⟨[⟨"a".toList, [("k".toList, "2".toList)], none, [1]⟩, ⟨"b".toList, [], some 0, []⟩]⟩,
      [.warn "Skipping unknown element <x> at line 1".toList,
        .warn "Skipping <component> without a name at line 1".toList,
        .debug "Loaded configuration 'a' with 1 validators".toList]) := by decide +kernel

theorem load_mirrors_nested : ∃ document, Xml.parse? nested = some document ∧
    (load nested).1.isSome = true ∧ LoadSpec document (load nested) := by
  have hload : (load nested).1.isSome = true := by
    rw [load_nested]
    rfl
  obtain ⟨document, hparse⟩ := exists_parse_of_load hload
  obtain ⟨hspec, hsource⟩ := load_mirrors document
  rw [← hsource nested hparse] at hspec
  exact ⟨document, hparse, hload, hspec⟩

end Configuration
end ProseLint
