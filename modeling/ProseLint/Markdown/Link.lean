import ProseLint.Markdown.Entity
import ProseLint.Markdown.PlacedText
import ProseLint.Unicode.Case

/-!
# Links, labels and definitions

A label stands in square brackets and holds none itself, escaped ones apart. Two labels are the same
when they agree up to case and to the amount of blanks. A definition at the beginning of a paragraph
gives the target of a label. Scans give what they found and the number of characters it takes.
-/
namespace ProseLint.Markdown

/-- What stands in square brackets: the name of a link or of a footnote. -/
inductive Label where
  | link (name : Text)
  | footnote (name : Text)
  deriving DecidableEq, Repr

def isInnerSpace (c : Char) : Bool := isLineSpace c || c == '\n'

/-- The words of a text joined by single blanks, where `gap` tells that blanks came before. -/
def collapse (gap : Bool) : Text → Text
  | [] => []
  | c :: t =>
    if isInnerSpace c then collapse true t
    else (if gap then [' ', c] else [c]) ++ collapse false t

/-- The letters that fold to another small letter or to two. -/
def foldCharacter (c : Char) : Text :=
  if c = 'ß' then ['s', 's'] else if c = 'ς' then ['σ'] else [c]

/-- The form in which labels are compared. -/
def normalizeLabel (t : Text) : Text :=
  ((collapse false (t.dropWhile isInnerSpace)).map Unicode.small).flatMap foldCharacter

/-- The text up to the bracket that closes a label; no break may stand in it unless allowed. -/
def labelBody? (breaks : Bool) : Text → Option Text
  | [] => none
  | ']' :: _ => some []
  | '[' :: _ => none
  | '\\' :: c :: t => (labelBody? breaks t).map fun b => '\\' :: c :: b
  | c :: t =>
    if c = '\n' && !breaks then none else (labelBody? breaks t).map (c :: ·)

/-- The greatest length of a label. -/
def maxLabel : Nat := 999

/-- The name that a label gives, which is not blank, and the length of the label behind its opening
bracket. -/
def labelName? (breaks : Bool) (t : Text) : Option (Text × Nat) :=
  match labelBody? breaks t with
  | none => none
  | some body =>
    if body.all isInnerSpace || maxLabel < body.length then none
    else some (normalizeLabel body, body.length + 1)

/-- The label behind an opening bracket. -/
def label? (footnotes : Bool) (t : Text) : Option (Label × Nat) :=
  let asLink := (labelName? true t).map fun r => (Label.link r.1, r.2)
  match t with
  | '^' :: rest =>
    if footnotes && rest.head? != some ']' then
      match labelName? false rest with
      | some (name, n) => some (.footnote name, n + 1)
      | none => asLink
    else asLink
  | _ => asLink

/-- A target between pointed brackets, behind the first of them. -/
def pointedTarget? : Text → Option Text
  | [] => none
  | '>' :: _ => some []
  | '\\' :: c :: t =>
    if isAsciiPunctuation c then (pointedTarget? t).map fun b => '\\' :: c :: b
    else if c = '\n' then none
    else (pointedTarget? t).map fun b => '\\' :: c :: b
  | c :: t =>
    if c = '\n' ∨ c = '\r' ∨ c = '<' then none else (pointedTarget? t).map (c :: ·)

/-- A target up to the next blank or the parenthesis that closes one outside it. At most `limit`
parentheses may be open in it, of which `nest` are. -/
def bareTarget? (limit nest : Nat) : Text → Option Text
  | [] => if nest = 0 then some [] else none
  | '\\' :: c :: t =>
    if isAsciiPunctuation c then (bareTarget? limit nest t).map fun b => '\\' :: c :: b
    else if c.toNat ≤ 0x20 then if nest = 0 then some ['\\'] else none
    else (bareTarget? limit nest t).map fun b => '\\' :: c :: b
  | c :: t =>
    if c.toNat ≤ 0x20 then if nest = 0 then some [] else none
    else if c = '(' then
      if limit < nest then none else (bareTarget? limit (nest + 1) t).map (c :: ·)
    else if c = ')' then
      if nest = 0 then some [] else (bareTarget? limit (nest - 1) t).map (c :: ·)
    else (bareTarget? limit nest t).map (c :: ·)

/-- A target as written and its length. -/
def target? (limit : Nat) (t : Text) : Option (Text × Nat) :=
  match t with
  | '<' :: rest => (pointedTarget? rest).map fun b => (b, b.length + 2)
  | _ => (bareTarget? limit 0 t).map fun b => (b, b.length)

/-- The length of a title's rest with its closing mark. -/
def titleRest? (opening closing : Char) : Text → Option Nat
  | [] => none
  | '\\' :: c :: t =>
    if isAsciiPunctuation c then (titleRest? opening closing t).map (· + 2)
    else if c = closing then some 2
    else (titleRest? opening closing t).map (· + 2)
  | c :: t =>
    if c = closing then some 1
    else if c = opening then none
    else (titleRest? opening closing t).map (· + 1)

/-- The length of a title in quotes or parentheses. -/
def title? (t : Text) : Option Nat :=
  match t with
  | [] => none
  | c :: rest =>
    if c = '"' ∨ c = '\'' then (titleRest? c c rest).map (· + 1)
    else if c = '(' then (titleRest? c ')' rest).map (· + 1)
    else none

/-- The text behind blanks with at most one line break among them. -/
def skipGap (t : Text) : Text :=
  match t.dropWhile isLineSpace with
  | '\n' :: rest => rest.dropWhile isLineSpace
  | rest => rest

/-- The target in parentheses right behind a label, and the length of the whole. -/
def inlineTarget? (t : Text) : Option (Text × Nat) :=
  match t with
  | '(' :: rest =>
    let start := skipGap rest
    match target? 5 start with
    | none => none
    | some (raw, n) =>
      let behind := skipGap (start.drop n)
      let behind := match title? behind with
        | some m => skipGap (behind.drop m)
        | none => behind
      match behind with
      | ')' :: rest => some (unescape raw, t.length - rest.length)
      | _ => none
  | _ => none

/-- The text behind a line that is blank from here on. -/
def skipBlankLine? (t : Text) : Option Text :=
  match t.dropWhile isLineSpace with
  | [] => some []
  | '\n' :: rest => some rest
  | _ => none

/-- What follows the target of a definition: an optional title, and nothing else on its line. -/
def definitionEnd? (t : Text) : Option Text :=
  let behind := skipGap t
  let spaced := behind.length < t.length
  let titled := if spaced then
      match title? behind with
      | some n => skipBlankLine? (behind.drop n)
      | none => none
    else none
  titled.or (skipBlankLine? t)

/-- The definition at the front of a text: its label, its target, and what follows it. -/
def definition? (t : Text) : Option (Text × Text × Text) :=
  match t with
  | '[' :: rest =>
    match labelName? true rest with
    | none => none
    | some (name, n) =>
      match rest.drop n with
      | ':' :: rest =>
        let start := skipGap rest
        match target? 1 start with
        | none => none
        | some (raw, m) =>
          if m = 0 then none
          else (definitionEnd? (start.drop m)).map fun rest => (name, unescape raw, rest)
      | _ => none
  | _ => none

/-- Take the definitions off the front of a paragraph. -/
def takeDefinitions (p : PlacedText) : List (Text × Text) × PlacedText :=
  match definition? (PlacedText.text p) with
  | none => ([], p)
  | some (name, url, rest) =>
    if h : p.length - rest.length = 0 then ([], p)
    else
      have : (p.drop (p.length - rest.length)).length < p.length := by
        rw [List.length_drop]
        omega
      let r := takeDefinitions (p.drop (p.length - rest.length))
      ((name, url) :: r.1, r.2)
termination_by p.length

end ProseLint.Markdown
