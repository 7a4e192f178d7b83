import ProseLint.CharacterTable
import ProseLint.Configuration
import ProseLint.Unicode.Case
import ProseLint.Validator
import ProseLint.Words

/-!
# Rules on sentences

The length of a sentence in characters and in words, symbols that must not occur, blanks around
symbols, and words that must not occur.
-/
namespace ProseLint.Rule

/-- The message of a count above its limit. -/
def exceeds (what : Text) (count limit : Nat) : Text :=
  what ++ " (".toList ++ Text.ofNat count ++ ") exceeds the maximum of ".toList ++
    Text.ofNat limit ++ ['.']

namespace SentenceLength

def name : Text := "SentenceLength".toList

def defaultMax : Nat := 30

def check (max : Nat) (s : Sentence) : List Finding :=
  let length := s.content.length
  if length ≤ max then []
  else [.onSentence name (exceeds "The length of the sentence".toList length max) s]

def validator (max : Nat) : Validator := ⟨name, .onSentence fun s => .ok (check max s)⟩

end SentenceLength

namespace WordNumber

def name : Text := "WordNumber".toList

def defaultMax : Nat := 30

def check (max : Nat) (s : Sentence) : List Finding :=
  let count := (Words.words s.content).length
  if count ≤ max then []
  else [.onSentence name (exceeds "The number of words".toList count max) s]

def validator (max : Nat) : Validator := ⟨name, .onSentence fun s => .ok (check max s)⟩

end WordNumber

namespace InvalidCharacter

def name : Text := "InvalidCharacter".toList

/-- The first variant of an entry that occurs in the sentence. -/
def variant? (e : CharacterEntry) (s : Sentence) : Option Char :=
  e.invalid.find? fun c => s.content.contains c

/-- At most one finding for each entry of the table. -/
def check (table : CharacterTable) (s : Sentence) : List Finding :=
  (table.entries.filterMap fun e => variant? e s).map fun c =>
    .onSentence name ("Invalid symbol found: \"".toList ++ [c] ++ ['"']) s

def validator (table : CharacterTable) : Validator :=
  ⟨name, .onSentence fun s => .ok (check table s)⟩

end InvalidCharacter

namespace SymbolWithSpace

def name : Text := "SymbolWithSpace".toList

/-- The neighbours of each occurrence of a symbol, where `before` stands in front of the text.
Occurrences do not overlap; an empty symbol has none. -/
def occurrences (symbol : Text) (before : Option Char) (t : Text) :
    List (Option Char × Option Char) :=
  match t with
  | [] => []
  | c :: rest =>
    if _ : symbol ≠ [] ∧ symbol.isPrefixOf (c :: rest) = true then
      let behind := (c :: rest).drop symbol.length
      (before, behind.head?) :: occurrences symbol symbol.getLast? behind
    else occurrences symbol (some c) rest
termination_by t.length
decreasing_by
  · rename_i h
    have : 0 < symbol.length := List.length_pos_iff.mpr h.1
    simp only [List.length_drop, List.length_cons]
    omega
  · simp

/-- A neighbour that is there and is not blank. -/
def crowds (c : Option Char) : Bool :=
  match c with
  | some c => !isBlank c
  | none => false

def complain (side : Text) (symbol : Text) (s : Sentence) : Finding :=
  .onSentence name
    ("Need whitespace ".toList ++ side ++ " symbol \"".toList ++ symbol ++ ['"']) s

/-- The findings of one occurrence of an entry's symbol. -/
def checkOccurrence (e : CharacterEntry) (s : Sentence) (around : Option Char × Option Char) :
    List Finding :=
  (if e.beforeSpace && crowds around.1 then [complain "before".toList e.value s] else []) ++
    (if e.afterSpace && crowds around.2 then [complain "after".toList e.value s] else [])

def check (table : CharacterTable) (s : Sentence) : List Finding :=
  table.entries.flatMap fun e =>
    (occurrences e.value none s.content).flatMap (checkOccurrence e s)

def validator (table : CharacterTable) : Validator :=
  ⟨name, .onSentence fun s => .ok (check table s)⟩

end SymbolWithSpace

namespace InvalidWord

def name : Text := "InvalidWord".toList

/-- Words in lower case without the blanks around them; blank ones are left out. -/
def normalize (words : List Text) : List Text :=
  (words.map fun w => Unicode.lowercase (Text.trim w)).filter fun w => !w.isEmpty

/-- The words of a sentence that are in the list when written in lower case. -/
def check (unwanted : List Text) (s : Sentence) : List Finding :=
  ((Words.words s.content).filter fun w => unwanted.contains (Unicode.lowercase w)).map fun w =>
    .onSentence name ("Invalid word found: \"".toList ++ w ++ ['"']) s

def validator (words : List Text) : Validator :=
  ⟨name, .onSentence fun s => .ok (check (normalize words) s)⟩

end InvalidWord

end ProseLint.Rule
