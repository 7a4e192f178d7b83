import ProseLint.Text

/-!
# Sentence ends

A sentence ends after a run of terminators and the closing quotes or brackets right behind it. A
run of ASCII terminators counts only before a blank or at the end of the text, so `example.org` and
`3.14` stay whole; a run with a wider terminator always counts.
-/
namespace ProseLint

/-- Quotes and brackets that stay with the terminator before them. -/
def isCloser (c : Char) : Bool :=
  c == '"' || c == '\'' || c == ')' || c == ']' || c == '”' || c == '’' || c == '」' ||
    c == '』' || c == '）'

/-- The characters that end a sentence, each once, in the order they were named. -/
structure Terminators where
  chars : List Char
  nodup : chars.Nodup

namespace Terminators

theorem nodup_insertEnd {cs : List Char} (h : cs.Nodup) (c : Char) :
    (if cs.contains c then cs else cs ++ [c]).Nodup := by
  split
  · exact h
  · rename_i hc
    rw [List.nodup_append]
    refine ⟨h, by simp, ?_⟩
    intro a ha b hb
    simp only [List.mem_singleton] at hb
    subst hb
    intro e
    subst e
    simp [ha] at hc

/-- Add a character behind the others unless it is there. -/
def insert (T : Terminators) (c : Char) : Terminators :=
  ⟨if T.chars.contains c then T.chars else T.chars ++ [c], nodup_insertEnd T.nodup c⟩

/-- The characters of a text, the first occurrence of each. -/
def ofText (t : Text) : Terminators := t.foldl insert ⟨[], List.nodup_nil⟩

/-- The full stop alone. -/
def fullStop : Terminators := ofText ['.']

/-- The full stop and further characters. -/
def withExtra (t : Text) : Terminators := t.foldl insert fullStop

/-- Full stops, question and exclamation marks, narrow and wide. -/
def japanese : Terminators := withExtra ['?', '!', '。', '？', '！']

def contains (T : Terminators) (c : Char) : Bool := T.chars.contains c

/-- How far the search for a sentence end has come: outside, in a run of terminators, or in the
closers behind one. `wide` tells whether the run holds a character beyond ASCII. -/
inductive Search where
  | outside
  | inRun (wide : Bool)
  | inClosers (wide : Bool)
  deriving DecidableEq, Repr

/-- The state after one more character, or nothing when the sentence ends before it. -/
def step (T : Terminators) (s : Search) (c : Char) : Option Search :=
  match s with
  | .outside => some (if T.contains c then .inRun (!isAscii c) else .outside)
  | .inRun wide =>
    if T.contains c then some (.inRun (wide || !isAscii c))
    else if isCloser c then some (.inClosers wide)
    else if wide || isBlank c then none
    else some .outside
  | .inClosers wide =>
    if isCloser c then some (.inClosers wide)
    else if wide || isBlank c then none
    else some (if T.contains c then .inRun (!isAscii c) else .outside)

/-- Cut a text at the first sentence end at or behind the state of the search. -/
def cutFrom (T : Terminators) : Search → Text → Option (Text × Text)
  | .outside, [] => none
  | .inRun _, [] => some ([], [])
  | .inClosers _, [] => some ([], [])
  | s, c :: t =>
    match T.step s c with
    | none => some ([], c :: t)
    | some s' => (T.cutFrom s' t).map fun r => (c :: r.1, r.2)

/-- Cut a text behind its first sentence end. -/
def cut (T : Terminators) (t : Text) : Option (Text × Text) := T.cutFrom .outside t

/-- The byte offset just past the first sentence end. -/
def firstEnd (T : Terminators) (t : Text) : Option Nat :=
  (T.cut t).map fun r => Text.byteLength r.1

theorem append_of_cutFrom {T : Terminators} {s : Search} {t a b : Text}
    (h : T.cutFrom s t = some (a, b)) : a ++ b = t := by
  induction t generalizing s a with
  | nil => cases s <;> simp_all [cutFrom]
  | cons c t ih =>
    simp only [cutFrom] at h
    split at h
    · simp only [Option.some.injEq, Prod.mk.injEq] at h
      simp [← h.1, ← h.2]
    · simp only [Option.map_eq_some_iff, Prod.mk.injEq, Prod.exists] at h
      obtain ⟨a', b', h', rfl, rfl⟩ := h
      simp [ih h']

/-- A cut loses nothing. -/
theorem append_of_cut {T : Terminators} {t a b : Text} (h : T.cut t = some (a, b)) :
    a ++ b = t := append_of_cutFrom h

theorem cut_ne_nil {T : Terminators} {t a b : Text} (h : T.cut t = some (a, b)) : a ≠ [] := by
  cases t with
  | nil => simp [cut, cutFrom] at h
  | cons c t =>
    simp only [cut, cutFrom, step, Option.map_eq_some_iff, Prod.mk.injEq] at h
    obtain ⟨_, _, rfl, _⟩ := h
    simp

theorem length_of_cut {T : Terminators} {t a b : Text} (h : T.cut t = some (a, b)) :
    b.length < t.length := by
  have ha := cut_ne_nil h
  have := congrArg List.length (append_of_cut h)
  have : a.length ≠ 0 := by simpa using ha
  simp only [List.length_append] at *
  omega

/-- The closed segments of a text, each up to a sentence end, and the remainder behind them. -/
def segments (T : Terminators) (t : Text) : List Text × Text :=
  match h : T.cut t with
  | none => ([], t)
  | some (a, b) =>
    have : b.length < t.length := length_of_cut h
    let r := T.segments b
    (a :: r.1, r.2)
termination_by t.length

end Terminators

end ProseLint
