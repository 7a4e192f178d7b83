import ProseLint.Markup

/-!
# Inline markup of the wiki dialect

A line is cut into plain text and pieces of markup: a labelled link `[label|url]`, an address
`[scheme://path]`, strong text between asterisks and emphasis between underscores. At each place
the piece that starts there wins, tried in this order; the inside of an emphasis is read in turn.
-/
namespace ProseLint.Markup.Wiki

/-- A piece of inline markup. -/
inductive Piece where
  | link (label url : Text)
  | address (url : Text)
  | emphasis (inner : Text)
  deriving DecidableEq, Repr

namespace Piece

/-- The text between the opening mark and what ends the first part of the piece. -/
def body : Piece → Text
  | link label _ => label
  | address url => url
  | emphasis inner => inner

end Piece

/-- Cut at the first character `mark`, which goes to neither side. -/
def cutAt? (mark : Char) : Text → Option (Text × Text)
  | [] => none
  | c :: t =>
    if c = mark then some ([], t)
    else (cutAt? mark t).map fun r => (c :: r.1, r.2)

theorem of_cutAt? {mark : Char} {t a b : Text} (h : cutAt? mark t = some (a, b)) :
    t = a ++ mark :: b ∧ mark ∉ a := by
  induction t generalizing a with
  | nil => simp [cutAt?] at h
  | cons c t ih =>
    simp only [cutAt?] at h
    split at h
    · rename_i hc
      simp only [Option.some.injEq, Prod.mk.injEq] at h
      obtain ⟨rfl, rfl⟩ := h
      simp [hc]
    · rename_i hc
      simp only [Option.map_eq_some_iff, Prod.mk.injEq, Prod.exists] at h
      obtain ⟨a', b', h', rfl, rfl⟩ := h
      have := ih h'
      refine ⟨by simp [this.1], ?_⟩
      simp only [List.mem_cons, not_or]
      exact ⟨fun e => hc e.symm, this.2⟩

theorem length_of_cutAt? {mark : Char} {t a b : Text} (h : cutAt? mark t = some (a, b)) :
    a.length + b.length < t.length := by
  have := congrArg List.length (of_cutAt? h).1
  simp only [List.length_append, List.length_cons] at this
  omega

/-- A labelled link, behind its opening bracket: a label without closing bracket or bar, and a url
without closing bracket, neither of them empty. -/
def labelled? (t : Text) : Option (Piece × Text) := do
  let (inner, rest) ← cutAt? ']' t
  let (label, url) ← cutAt? '|' inner
  if label.isEmpty || url.isEmpty then none else some (.link label url, rest)

/-- A character of a scheme's name. -/
def isSchemeCharacter (c : Char) : Bool := c.isAlphanum || c == '+' || c == '.' || c == '-'

/-- A scheme, `://` and a path that is not empty. -/
def isAddress (t : Text) : Bool :=
  match t with
  | [] => false
  | c :: _ =>
    c.isAlpha &&
      match Text.dropStart? "://".toList (t.dropWhile isSchemeCharacter) with
      | none => false
      | some path => !path.isEmpty && !path.contains '|'

/-- An address, behind its opening bracket. -/
def address? (t : Text) : Option (Piece × Text) := do
  let (url, rest) ← cutAt? ']' t
  if isAddress url then some (.address url, rest) else none

/-- Text between two marks, behind the first of them. -/
def emphasis? (mark : Char) (t : Text) : Option (Piece × Text) := do
  let (inner, rest) ← cutAt? mark t
  if inner.isEmpty then none else some (.emphasis inner, rest)

/-- The piece at the front of a text and what follows it. -/
def piece? : Text → Option (Piece × Text)
  | [] => none
  | c :: t =>
    if c = '[' then (labelled? t).or (address? t)
    else if c = '*' ∨ c = '_' then emphasis? c t
    else none

theorem length_of_piece? {t rest : Text} {p : Piece} (h : piece? t = some (p, rest)) :
    p.body.length < t.length ∧ rest.length < t.length := by
  cases t with
  | nil => simp [piece?] at h
  | cons c t =>
    simp only [piece?] at h
    simp only [List.length_cons]
    split at h
    · rw [Option.or_eq_some_iff] at h
      rcases h with h | ⟨_, h⟩
      · simp only [labelled?, Option.bind_eq_bind, Option.bind_eq_some_iff, Prod.exists] at h
        obtain ⟨inner, r, h1, label, url, h2, h3⟩ := h
        have l1 := length_of_cutAt? h1
        have l2 := length_of_cutAt? h2
        split at h3
        · simp at h3
        · simp only [Option.some.injEq, Prod.mk.injEq] at h3
          obtain ⟨rfl, rfl⟩ := h3
          simp only [Piece.body]
          omega
      · simp only [address?, Option.bind_eq_bind, Option.bind_eq_some_iff, Prod.exists] at h
        obtain ⟨url, r, h1, h2⟩ := h
        have l1 := length_of_cutAt? h1
        split at h2
        · simp only [Option.some.injEq, Prod.mk.injEq] at h2
          obtain ⟨rfl, rfl⟩ := h2
          simp only [Piece.body]
          omega
        · simp at h2
    · split at h
      · simp only [emphasis?, Option.bind_eq_bind, Option.bind_eq_some_iff, Prod.exists] at h
        obtain ⟨inner, r, h1, h2⟩ := h
        have l1 := length_of_cutAt? h1
        split at h2
        · simp at h2
        · simp only [Option.some.injEq, Prod.mk.injEq] at h2
          obtain ⟨rfl, rfl⟩ := h2
          simp only [Piece.body]
          omega
      · simp at h

/-- A text leaf, unless the text is empty. -/
def textLeaf (offset : Nat) (t : Text) : List Node := if t.isEmpty then [] else [.text offset t]

/-- The nodes of a text, where `plain` has been passed since `offset`, the last character first. -/
def inlineFrom (offset : Nat) (plain : Text) (t : Text) : List Node :=
  match h : piece? t with
  | some (p, rest) =>
    have := length_of_piece? h
    let start := offset + Text.byteLength plain
    let node : Node :=
      match hp : p with
      | .link label url => .container (.link (Text.trim url)) [.text (start + 1) label]
      | .address url => .leaf (.autolink (start + 1) url)
      | .emphasis inner =>
        have : inner.length < t.length := by
          have := length_of_piece? h
          simp only [Piece.body] at this
          exact this.1
        .container .emphasis (inlineFrom (start + 1) [] inner)
    let next := start + (Text.byteLength t - Text.byteLength rest)
    textLeaf offset plain.reverse ++ node :: inlineFrom next [] rest
  | none =>
    match t with
    | [] => textLeaf offset plain.reverse
    | c :: t => inlineFrom offset (c :: plain) t
termination_by t.length
decreasing_by
  all_goals simp_all

/-- The nodes of a text that starts at `offset`. -/
def inline (offset : Nat) (t : Text) : List Node := inlineFrom offset [] t

end ProseLint.Markup.Wiki
