import Mathlib.Data.Nat.Digits.Defs
import Mathlib.Tactic
import ProseLint.Proofs.Text.Ink
import ProseLint.Registry

/-!
# What the rules require

A node asks for a validator by the name of a rule. Six rules take a number as their limit, two need
the character table, one needs a list of words, and one takes any start of a paragraph. What a node
must bring is stated here without the registry: `Meets` says that it brings it, `Built` which
validator it gets then, and `Refused` with which error it is turned down otherwise.
-/
namespace ProseLint

/-- Decimal digits, one at least, that write a number of at most 64 bits. -/
def Digits (digits : Text) (n : Nat) : Prop :=
  digits ≠ [] ∧ (∀ c ∈ digits, c.isDigit = true) ∧
    Nat.ofDigits 10 (digits.reverse.map fun c => c.toNat - '0'.toNat) = n ∧ n ≤ 2 ^ 64 - 1

/-- Digits with an optional plus sign in front. -/
def Numeral (t : Text) (n : Nat) : Prop :=
  ∃ digits, (t = digits ∨ t = '+' :: digits) ∧ Digits digits n

theorem foldl_digits (digits : Text) :
    digits.foldl (fun n c => 10 * n + (c.toNat - '0'.toNat)) 0 =
      Nat.ofDigits 10 (digits.reverse.map fun c => c.toNat - '0'.toNat) := by
  rw [Nat.ofDigits_eq_foldr, List.foldr_map, List.foldr_reverse]
  simp only [Nat.cast_id, Nat.add_comm]

theorem digits_iff (digits : Text) (n : Nat) :
    (if digits.isEmpty || !digits.all Char.isDigit then none
      else
        let n := digits.foldl (fun n c => 10 * n + (c.toNat - '0'.toNat)) 0
        if n ≤ maxNumber then some n else none) = some n ↔ Digits digits n := by
  have hmax : maxNumber = 2 ^ 64 - 1 := rfl
  rw [foldl_digits, hmax]
  by_cases hempty : digits = []
  · simp [hempty, Digits]
  by_cases hall : ∀ c ∈ digits, c.isDigit = true
  · have hcond : (digits.isEmpty || !digits.all Char.isDigit) = false := by
      simpa [hempty] using hall
    simp only [hcond, Bool.false_eq_true, if_false, Digits, ne_eq, hempty, not_false_eq_true,
      true_and, Option.ite_none_right_eq_some, Option.some.injEq]
    constructor
    · rintro ⟨hle, rfl⟩
      exact ⟨hall, rfl, hle⟩
    · rintro ⟨-, rfl, hle⟩
      exact ⟨hle, rfl⟩
  · have hcond : (digits.isEmpty || !digits.all Char.isDigit) = true := by
      simpa [hempty] using hall
    simp only [hcond, if_true, reduceCtorEq, false_iff]
    exact fun h => hall h.2.1

/-- The reader of numbers accepts the numerals and gives their values. -/
theorem parseNumber?_eq_some_iff (t : Text) (n : Nat) : parseNumber? t = some n ↔ Numeral t n := by
  -- A plus sign is no digit, so it can only be the sign.
  have hplus : ∀ rest, ¬ Digits ('+' :: rest) n := fun rest h =>
    absurd (h.2.1 '+' (by simp)) (by decide)
  unfold parseNumber? Numeral
  split
  case h_1 rest =>
    rw [digits_iff]
    constructor
    · exact fun h => ⟨rest, .inr rfl, h⟩
    · rintro ⟨digits, rfl | hcons, h⟩
      · exact absurd h (hplus rest)
      · cases hcons
        exact h
  case h_2 hsign =>
    rw [digits_iff]
    constructor
    · exact fun h => ⟨t, .inl rfl, h⟩
    · rintro ⟨digits, rfl | hcons, h⟩
      · exact h
      · exact absurd hcons (hsign digits)

/-- Some item between the commas is not blank. -/
def NamesWord (list : Text) : Prop :=
  ∃ item ∈ Text.splitOn ',' list, ∃ c ∈ item, isBlank c = false

theorem lowercase_eq_nil_iff (t : Text) : Unicode.lowercase t = [] ↔ t = [] := by
  cases t with
  | nil => simp [Unicode.lowercase, Unicode.lowercaseAfter]
  | cons c t =>
    have himage : Unicode.lowercase (c :: t) ≠ [] := by
      unfold Unicode.lowercase Unicode.lowercaseAfter
      simp only [ne_eq, List.append_eq_nil_iff, not_and_or]
      left
      split_ifs <;> simp
    simp [himage]

/-- Lower case makes no word vanish, so a list without words is one of blank items. -/
theorem isEmpty_normalize_iff (list : Text) :
    (Rule.InvalidWord.normalize (Text.splitOn ',' list)).isEmpty = true ↔ ¬ NamesWord list := by
  have hitem : ∀ item : Text, Unicode.lowercase (Text.trim item) = [] ↔
      ∀ c ∈ item, isBlank c = true := fun item => by
    rw [lowercase_eq_nil_iff, Text.trim_eq_nil_iff, Text.ink_eq_nil]
  simp [Rule.InvalidWord.normalize, NamesWord, hitem]

/-- A rule with one number as its limit. -/
structure LimitRule where
  name : Text
  parameter : Text
  default : Nat
  validator : Nat → Validator

/-- The rules with a limit; the number of words has two names. -/
def limitRules : List LimitRule :=
  [⟨"SentenceLength".toList, "max_length".toList, 30, Rule.SentenceLength.validator⟩,
    ⟨"MaxWordNumber".toList, "max_num".toList, 30, Rule.WordNumber.validator⟩,
    ⟨"WordNumber".toList, "max_num".toList, 30, Rule.WordNumber.validator⟩,
    ⟨"SectionLength".toList, "max_char_num".toList, 1000, Rule.SectionLength.validator⟩,
    ⟨"ParagraphNumber".toList, "max_paragraph_num".toList, 6, Rule.ParagraphNumber.validator⟩,
    ⟨"MaxSectionNumber".toList, "max_num".toList, 100, Rule.MaxSectionNumber.validator⟩]

/-- A rule that needs the character table. -/
structure TableRule where
  name : Text
  validator : CharacterTable → Validator

def tableRules : List TableRule :=
  [⟨"InvalidCharacter".toList, Rule.InvalidCharacter.validator⟩,
    ⟨"SymbolWithSpace".toList, Rule.SymbolWithSpace.validator⟩]

def wordRule : Text := "InvalidWord".toList

def startRule : Text := "ParagraphStartWith".toList

/-- The names of all rules. -/
def ruleNames : List Text :=
  limitRules.map (·.name) ++ tableRules.map (·.name) ++ [wordRule, startRule]

variable (resources : Resources) (node : ConfigNode)

/-- The node names a rule and brings what the rule asks for. -/
structure Meets : Prop where
  known : node.name ∈ ruleNames
  number : ∀ r ∈ limitRules, node.name = r.name →
    ∀ value, node.attribute? r.parameter = some value → ∃ n, Numeral (Text.trim value) n
  table : ∀ r ∈ tableRules, node.name = r.name → resources.characterTable ≠ none
  words : node.name = wordRule → ∃ list, node.attribute? "list".toList = some list ∧ NamesWord list

/-- The validator that a node gets. -/
inductive Built : Validator → Prop
  | default (r : LimitRule) (known : r ∈ limitRules) (name : node.name = r.name)
      (absent : node.attribute? r.parameter = none) : Built (r.validator r.default)
  | limit (r : LimitRule) (known : r ∈ limitRules) (name : node.name = r.name) (value : Text)
      (n : Nat) (present : node.attribute? r.parameter = some value)
      (number : Numeral (Text.trim value) n) : Built (r.validator n)
  | table (r : TableRule) (known : r ∈ tableRules) (name : node.name = r.name)
      (table : CharacterTable) (present : resources.characterTable = some table) :
      Built (r.validator table)
  | words (name : node.name = wordRule) (list : Text)
      (present : node.attribute? "list".toList = some list) (word : NamesWord list) :
      Built (Rule.InvalidWord.validator (Text.splitOn ',' list))
  | start (name : node.name = startRule) :
      Built (Rule.ParagraphStartWith.validator
        ((node.attribute? "start_from".toList).getD [' ']))

/-- The error that a node gets; a bad value is shown as it stands, its blanks included. -/
inductive Refused : ConfigError → Prop
  | unknown (name : node.name ∉ ruleNames) : Refused (.unknownValidator node.name)
  | number (r : LimitRule) (known : r ∈ limitRules) (name : node.name = r.name) (value : Text)
      (present : node.attribute? r.parameter = some value)
      (bad : ∀ n, ¬ Numeral (Text.trim value) n) :
      Refused (.invalidParameter node.name r.parameter value)
  | table (r : TableRule) (known : r ∈ tableRules) (name : node.name = r.name)
      (absent : resources.characterTable = none) :
      Refused (.missingResource node.name "character table".toList)
  | noList (name : node.name = wordRule) (absent : node.attribute? "list".toList = none) :
      Refused (.missingParameter node.name "list".toList)
  | blankList (name : node.name = wordRule) (list : Text)
      (present : node.attribute? "list".toList = some list) (blank : ¬ NamesWord list) :
      Refused (.invalidParameter node.name "list".toList list)

/-- A node is turned down when it does not bring what its rule asks for, and only then. -/
theorem exists_refused_iff : (∃ e, Refused resources node e) ↔ ¬ Meets resources node := by
  constructor
  · rintro ⟨e, hrefused⟩ hmeets
    cases hrefused with
    | unknown name => exact name hmeets.known
    | number r known name value present bad =>
      obtain ⟨n, hn⟩ := hmeets.number r known name value present
      exact bad n hn
    | table r known name absent => exact hmeets.table r known name absent
    | noList name absent =>
      obtain ⟨list, present, -⟩ := hmeets.words name
      rw [absent] at present
      cases present
    | blankList name list present blank =>
      obtain ⟨list', present', hword⟩ := hmeets.words name
      rw [present, Option.some.injEq] at present'
      exact blank (present' ▸ hword)
  · intro hmeets
    by_contra hnone
    have hnot : ∀ e, ¬ Refused resources node e := fun e h => hnone ⟨e, h⟩
    refine hmeets ⟨?_, ?_, ?_, ?_⟩
    · by_contra name
      exact hnot _ (.unknown name)
    · intro r known name value present
      by_contra bad
      exact hnot _ (.number r known name value present fun n hn => bad ⟨n, hn⟩)
    · intro r known name absent
      exact hnot _ (.table r known name absent)
    · intro name
      cases hlist : node.attribute? "list".toList with
      | none => exact absurd (.noList name hlist) (hnot _)
      | some list =>
        refine ⟨list, rfl, ?_⟩
        by_contra blank
        exact hnot _ (.blankList name list hlist blank)

end ProseLint
