import ProseLint.Text
import ProseLint.Unicode.WordCharacter

/-!
# Words

A word is made of runs of word characters joined by single connectors: an apostrophe, straight or
curved, or a hyphen. A connector that no word character follows ends the word before it.
-/
namespace ProseLint.Words

open Unicode (isWordCharacter)

/-- A character that joins two runs of one word. -/
def isConnector (c : Char) : Bool := c == '\'' || c == '’' || c == '-'

/-- Whether the text begins with a word character. -/
def startsWord : Text → Bool
  | [] => false
  | c :: _ => isWordCharacter c

/-- The rest of a word at the front of a text, and what follows it. -/
def takeWord : Text → Text × Text
  | [] => ([], [])
  | c :: t =>
    if isWordCharacter c || (isConnector c && startsWord t) then
      let r := takeWord t
      (c :: r.1, r.2)
    else ([], c :: t)

theorem takeWord_append (t : Text) : (takeWord t).1 ++ (takeWord t).2 = t := by
  induction t with
  | nil => rfl
  | cons c t ih => simp only [takeWord]; split <;> simp [ih]

theorem length_takeWord_le (t : Text) : (takeWord t).2.length ≤ t.length := by
  have h := congrArg List.length (takeWord_append t)
  simp only [List.length_append] at h
  omega

/-- The words of a text from left to right. -/
def words : Text → List Text
  | [] => []
  | c :: t =>
    if isWordCharacter c then
      let r := takeWord t
      (c :: r.1) :: words r.2
    else words t
termination_by t => t.length
decreasing_by
  · have := length_takeWord_le t
    simp only [List.length_cons]
    omega
  · simp

end ProseLint.Words
