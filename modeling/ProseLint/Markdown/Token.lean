import ProseLint.Markdown.Entity
import ProseLint.Markdown.Options
import ProseLint.Markdown.PlacedText
import ProseLint.Unicode.Punctuation

/-!
# Inline tokens

The inline text of a block is cut into tokens: plain text, and the marks that may turn out to be
markup. A token keeps the offsets at which it starts and stops and the text behind it, so that what
a mark opens can be looked for from there.
-/
namespace ProseLint.Markdown

inductive TokenKind where
  | text (t : PlacedText)
  /-- Text that stands for other characters of the source. -/
  | glyphs (t : Text)
  /-- A run of `mark` that may open or close emphasis. -/
  | run (mark : Char) (count : Nat) (opens closes : Bool)
  /-- A run of backticks, the first of which a backslash may escape. -/
  | ticks (count : Nat) (escaped : Bool)
  | quote (mark : Char) (opens closes : Bool)
  | dollar (opens closes : Bool) (nesting : Nat)
  | angle
  | bracket (image : Bool)
  | closing
  | softBreak
  | hardBreak
  deriving DecidableEq, Repr

structure Token where
  kind : TokenKind
  start : Nat
  stop : Nat
  behind : PlacedText

def isAnySpace (c : Char) : Bool := isBlank c

/-- Whether a run may open emphasis or a quotation, given the characters around it. Asterisks and
double tildes may do so inside a word. -/
def canOpen (mark : Char) (count : Nat) (before after : Char) : Bool :=
  !isAnySpace after &&
    ((mark == '*' && !Unicode.isPunctuation after) || (mark == '~' && 1 < count) ||
      isAnySpace before ||
      (Unicode.isPunctuation before && (mark != '\'' || (before != ']' && before != ')'))))

/-- Whether a run may close emphasis or a quotation. -/
def canClose (mark : Char) (count : Nat) (before after : Char) : Bool :=
  !isAnySpace before &&
    (((mark == '*' || (mark == '~' && 1 < count)) && !Unicode.isPunctuation before) ||
      isAnySpace after || Unicode.isPunctuation after)

/-- The dashes that a run of two or more hyphens stands for, the long ones first. -/
def dashes (count : Nat) : Text :=
  let (long, short) : Nat × Nat :=
    if count % 3 = 0 then (count / 3, 0)
    else if count % 2 = 0 then (0, count / 2)
    else if count % 3 = 2 then ((count - 2) / 3, 1)
    else ((count - 4) / 3, 2)
  List.replicate long '—' ++ List.replicate short '–'

/-- The tokens so far, the last one first; the plain text under way, the last character first; how
many characters are passed over or taken as plain text without looking at them; and the braces
around the place, by number. -/
structure Cutting where
  tokens : List Token := []
  plain : PlacedText := []
  passed : Nat := 0
  literal : Nat := 0
  before : Char := '\n'
  /-- The backslashes right before the place. -/
  slashes : Nat := 0
  braces : List Nat := []
  nextBrace : Nat := 1

namespace Cutting

/-- The offset behind a character. -/
def stopOf (c : Char × Nat) : Nat := c.2 + c.1.utf8Size

/-- End the plain text under way. -/
def endText (behind : PlacedText) (s : Cutting) : Cutting :=
  match s.plain with
  | [] => s
  | c :: _ =>
    let t := s.plain.reverse
    let token : Token := ⟨.text t, PlacedText.startOr 0 t, stopOf c, behind⟩
    { s with tokens := token :: s.tokens, plain := [] }

/-- Add a token that takes the next `length` characters, each of one byte. -/
def add (kind : TokenKind) (length : Nat) (p : PlacedText) (s : Cutting) : Cutting :=
  let s := s.endText p
  let start := PlacedText.startOr 0 p
  { s with
    tokens := ⟨kind, start, start + length, p.drop length⟩ :: s.tokens
    passed := length - 1 }

/-- Take the next character as plain text. -/
def keep (c : Char × Nat) (s : Cutting) : Cutting := { s with plain := c :: s.plain }

/-- Go on behind a line break: blanks before it are dropped, and two of them make a hard break, as a
backslash does. -/
def lineBreak (c : Char × Nat) (behind : PlacedText) (s : Cutting) : Cutting :=
  let blanks := s.plain.takeWhile fun d => isLineSpace d.1
  let kept := s.plain.drop blanks.length
  let place (kind : TokenKind) (start : Nat) (plain : PlacedText) : Cutting :=
    let s := { s with plain := plain }.endText behind
    { s with tokens := ⟨kind, start, c.2 + 1, behind⟩ :: s.tokens }
  if s.slashes % 2 = 1 then place .hardBreak (c.2 - 1) (s.plain.drop 1)
  else if 2 ≤ blanks.length then place .hardBreak (c.2 - blanks.length) kept
  else place .softBreak c.2 kept

/-- The brace around the place. -/
def brace (s : Cutting) : Nat := s.braces.headD 0

/-- A run of a mark of emphasis; the mark is plain text if it neither opens nor closes. -/
def emphasis (mark : Char) (p : PlacedText) (s : Cutting) : Cutting :=
  let count := (p.takeWhile fun d => d.1 == mark).length
  let after := match p.drop count with
    | [] => '\n'
    | d :: _ => d.1
  let opens := canOpen mark count s.before after
  let closes := canClose mark count s.before after
  if (opens || closes) && (mark != '~' || count ≤ 2) then
    s.add (.run mark count opens closes) count p
  else { s with literal := count }

/-- Take in the next character, where `p` begins with it. -/
def mark (opts : Options) (c : Char × Nat) (behind p : PlacedText) (s : Cutting) : Cutting :=
  let after := match behind with
    | [] => '\n'
    | d :: _ => d.1
  if c.1 = '\n' then s.lineBreak c behind
  else if c.1 = '\\' then
    if isAsciiPunctuation after then
      if after = '`' then
        let count := (behind.takeWhile fun d => d.1 == '`').length
        let s := s.endText p
        { s with
          tokens := ⟨.ticks count true, c.2 + 1, c.2 + 1 + count, behind.drop count⟩ :: s.tokens
          passed := count }
      else { s.endText p with literal := 1 }
    else s.keep c
  else if c.1 = '*' ∨ c.1 = '_' ∨ (opts.strikethrough ∧ c.1 = '~') then
    let s := s.emphasis c.1 p
    if 0 < s.literal then { s.keep c with literal := s.literal - 1 } else s
  else if c.1 = '`' then
    let count := (p.takeWhile fun d => d.1 == '`').length
    s.add (.ticks count false) count p
  else if c.1 = '<' then if after = '\\' then s.keep c else s.add .angle 1 p
  else if c.1 = '!' ∧ after = '[' then s.add (.bracket true) 2 p
  else if c.1 = '[' then s.add (.bracket false) 1 p
  else if c.1 = ']' then s.add .closing 1 p
  else if c.1 = '&' then
    match entity? (PlacedText.text p) with
    | some (cs, n) => s.add (.glyphs cs) n p
    | none => s.keep c
  else if opts.math ∧ c.1 = '$' then
    s.add (.dollar (!isInnerBlank after) (!isInnerBlank s.before) s.brace) 1 p
  else if opts.math ∧ c.1 = '\x7b' then
    { s.keep c with braces := s.nextBrace :: s.braces, nextBrace := s.nextBrace + 1 }
  else if opts.math ∧ c.1 = '\x7d' then
    match s.braces with
    | [] => { s.keep c with braces := [s.nextBrace], nextBrace := s.nextBrace + 1 }
    | _ :: outer => { s.keep c with braces := outer }
  else if opts.smart ∧ c.1 = '.' ∧ ['.', '.', '.'].isPrefixOf (PlacedText.text (p.take 3)) then
    s.add (.glyphs ['…']) 3 p
  else if opts.smart ∧ c.1 = '-' then
    let count := (p.takeWhile fun d => d.1 == '-').length
    if count = 1 then s.keep c else s.add (.glyphs (dashes count)) count p
  else if opts.smart ∧ (c.1 = '\'' ∨ c.1 = '"') then
    s.add (.quote c.1 (canOpen c.1 1 s.before after) (canClose c.1 1 s.before after)) 1 p
  else s.keep c
where
  /-- A blank next to a dollar sign. -/
  isInnerBlank (c : Char) : Bool := isLineSpace c || c == '\n'

/-- Cut a placed text from a state on. -/
def cut (opts : Options) (s : Cutting) : PlacedText → List Token
  | [] => (s.endText []).tokens.reverse
  | c :: behind =>
    let s' :=
      if 0 < s.passed then { s with passed := s.passed - 1 }
      else if 0 < s.literal then { s.keep c with literal := s.literal - 1 }
      else s.mark opts c behind (c :: behind)
    cut opts { s' with
      before := c.1
      slashes := if c.1 = '\\' then s.slashes + 1 else 0 } behind

end Cutting

/-- The tokens of a placed text. -/
def tokens (opts : Options) (p : PlacedText) : List Token := Cutting.cut opts {} p

end ProseLint.Markdown
