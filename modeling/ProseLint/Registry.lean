import ProseLint.Configuration
import ProseLint.Diagnostic
import ProseLint.Rule.SectionRules

/-!
# Registry of validators

The registry knows by name how to make a validator from its configuration node and from the
resources that all validators share.
-/
namespace ProseLint

/-- What the validators share. -/
structure Resources where
  characterTable : Option CharacterTable := none

abbrev Constructor := ConfigNode → Resources → Except ConfigError Validator

/-- Constructors, at most one under each name. -/
structure Registry where
  constructors : List (Text × Constructor) := []

namespace Registry

/-- Register a constructor in place of any other of that name. -/
def register (name : Text) (make : Constructor) (r : Registry) : Registry :=
  ⟨r.constructors.filter (fun entry => entry.1 != name) ++ [(name, make)]⟩

def find? (name : Text) (r : Registry) : Option Constructor := r.constructors.lookup name

def isRegistered (name : Text) (r : Registry) : Bool := (r.find? name).isSome

/-- Order by code points. -/
def nameLE : Text → Text → Bool
  | [], _ => true
  | _ :: _, [] => false
  | c :: a, d :: b => c.toNat < d.toNat || (c == d && nameLE a b)

/-- The registered names, sorted. -/
def names (r : Registry) : List Text := (r.constructors.map (·.1)).mergeSort nameLE

/-- A rule with one number as its limit. -/
def limited (parameter : Text) (default : Nat) (make : Nat → Validator) : Constructor :=
  fun node _ =>
    match node.numberOr parameter default with
    | .ok max => .ok (make max)
    | .error e => .error e

/-- A rule that needs the character table. -/
def tabled (name : Text) (make : CharacterTable → Validator) : Constructor :=
  fun _ resources =>
    match resources.characterTable with
    | some table => .ok (make table)
    | none => .error (.missingResource name "character table".toList)

/-- The list of unwanted words, of which one at least must not be blank. -/
def wordList : Constructor := fun node _ =>
  match node.required "list".toList with
  | .error e => .error e
  | .ok list =>
    let words := Text.splitOn ',' list
    if (Rule.InvalidWord.normalize words).isEmpty then
      .error (.invalidParameter node.name "list".toList list)
    else .ok (Rule.InvalidWord.validator words)

/-- The start of a paragraph. -/
def paragraphStart : Constructor := fun node _ =>
  .ok (Rule.ParagraphStartWith.validator
    (node.textOr "start_from".toList Rule.ParagraphStartWith.defaultStart))

/-- The rules that are always there; the number of words has two names. -/
def builtins : List (Text × Constructor) :=
  [(Rule.SentenceLength.name,
      limited "max_length".toList Rule.SentenceLength.defaultMax Rule.SentenceLength.validator),
    ("MaxWordNumber".toList,
      limited "max_num".toList Rule.WordNumber.defaultMax Rule.WordNumber.validator),
    (Rule.WordNumber.name,
      limited "max_num".toList Rule.WordNumber.defaultMax Rule.WordNumber.validator),
    (Rule.InvalidCharacter.name,
      tabled Rule.InvalidCharacter.name Rule.InvalidCharacter.validator),
    (Rule.SymbolWithSpace.name, tabled Rule.SymbolWithSpace.name Rule.SymbolWithSpace.validator),
    (Rule.InvalidWord.name, wordList),
    (Rule.SectionLength.name,
      limited "max_char_num".toList Rule.SectionLength.defaultMax Rule.SectionLength.validator),
    (Rule.ParagraphNumber.name,
      limited "max_paragraph_num".toList Rule.ParagraphNumber.defaultMax
        Rule.ParagraphNumber.validator),
    (Rule.ParagraphStartWith.name, paragraphStart),
    (Rule.MaxSectionNumber.name,
      limited "max_num".toList Rule.MaxSectionNumber.defaultMax Rule.MaxSectionNumber.validator)]

def registerBuiltins (r : Registry) : Registry :=
  builtins.foldl (fun r entry => r.register entry.1 entry.2) r

def withBuiltins : Registry := registerBuiltins {}

/-- The log line of a validator made from the node of a name. -/
def createdLine (v : Validator) (nodeName : Text) : LogLine :=
  .debug ("Created ".toList ++ v.scope.name ++ " validator '".toList ++ v.name ++
    "' from '".toList ++ nodeName ++ ['\''])

/-- Make the validator that a node names. -/
def create (r : Registry) (node : ConfigNode) (resources : Resources) :
    Except ConfigError Validator × List LogLine :=
  match r.find? node.name with
  | none => (.error (.unknownValidator node.name), [])
  | some make =>
    match make node resources with
    | .error e => (.error e, [])
    | .ok v => (.ok v, [createdLine v node.name])

/-- Make the validators of a list of nodes; the first error ends it. -/
def createAll (r : Registry) (resources : Resources) :
    List ConfigNode → Except ConfigError (List Validator) × List LogLine
  | [] => (.ok [], [])
  | node :: rest =>
    match r.create node resources with
    | (.error e, log) => (.error e, log)
    | (.ok v, log) =>
      match r.createAll resources rest with
      | (.error e, log') => (.error e, log ++ log')
      | (.ok vs, log') => (.ok (v :: vs), log ++ log')

/-- The validators that a configuration asks for, in declaration order. -/
def configure (r : Registry) (c : Configuration) (resources : Resources) :
    Except ConfigError (List Validator) × List LogLine :=
  match r.createAll resources c.validators with
  | (.error e, log) => (.error e, log)
  | (.ok vs, log) =>
    (.ok vs, log ++ [.info ("Configured ".toList ++ Text.ofNat vs.length ++ " validators".toList)])

end Registry

end ProseLint
