import ProseLint.Sentence

/-!
# Findings

A finding is one violation of one rule, with the file and the sentence where they are known.
-/
namespace ProseLint

structure Finding where
  validator : Text
  message : Text
  file : Option Text := none
  line : Nat
  sentence : Option Sentence := none
  deriving DecidableEq, Repr

namespace Finding

/-- A finding on a line. -/
def onLine (validator message : Text) (line : Nat) : Finding :=
  { validator := validator, message := message, line := line }

/-- A finding on a sentence, on whose line it stands. -/
def onSentence (validator message : Text) (s : Sentence) : Finding :=
  { validator := validator, message := message, line := s.line, sentence := some s }

def withFile (file : Text) (f : Finding) : Finding := { f with file := some file }

/-- The file name, empty when it is not known. -/
def fileName (f : Finding) : Text := f.file.getD []

def render (f : Finding) : Text :=
  ['['] ++ f.validator ++ "] line ".toList ++ Text.ofNat f.line ++ ": ".toList ++ f.message

end Finding

end ProseLint
