import ProseLint.Xml.Name

/-!
# XML references

A reference stands for one character: by its number, or by one of the five predefined names. No
other name is known.
-/
namespace ProseLint.Xml

/-- The value of digits in a base. -/
def digitsValue (base : Nat) (digits : Text) : Nat :=
  digits.foldl (fun n c =>
    base * n +
      (if c.isDigit then c.toNat - '0'.toNat
       else if c.toNat < 'a'.toNat then c.toNat - 'A'.toNat + 10
       else c.toNat - 'a'.toNat + 10)) 0

def isHexDigit (c : Char) : Bool := c.isDigit || ('a' ≤ c && c ≤ 'f') || ('A' ≤ c && c ≤ 'F')

/-- The character with a number; one that is no character's gives the replacement character, and
one beyond 32 bits, or of a character that may not occur, gives nothing. -/
def numbered? (n : Nat) : Option Char :=
  if UInt32.size ≤ n then none
  else
    let c := if n.isValidChar then Char.ofNat n else '\uFFFD'
    if isCharacter c then some c else none

/-- The character that the text between `&` and `;` stands for. -/
def named? (name : Text) : Option Char :=
  if name = "quot".toList then some '"'
  else if name = "amp".toList then some '&'
  else if name = "apos".toList then some '\''
  else if name = "lt".toList then some '<'
  else if name = "gt".toList then some '>'
  else none

/-- The character of a reference, its `&` and `;` taken off. -/
def reference? (body : Text) : Option Char :=
  match body with
  | '#' :: 'x' :: digits =>
    if digits.isEmpty || !digits.all isHexDigit then none else numbered? (digitsValue 16 digits)
  | '#' :: digits =>
    if digits.isEmpty || !digits.all Char.isDigit then none
    else numbered? (digitsValue 10 digits)
  | name => named? name

/-- Cut a text behind its first semicolon, which is dropped. -/
def cutSemicolon? : Text → Option (Text × Text)
  | [] => none
  | c :: t => if c = ';' then some ([], t) else (cutSemicolon? t).map fun r => (c :: r.1, r.2)

theorem length_of_cutSemicolon? {t a b : Text} (h : cutSemicolon? t = some (a, b)) :
    b.length < t.length := by
  induction t generalizing a with
  | nil => simp [cutSemicolon?] at h
  | cons c t ih =>
    simp only [cutSemicolon?] at h
    split at h
    · simp only [Option.some.injEq, Prod.mk.injEq] at h
      simp [h.2]
    · simp only [Option.map_eq_some_iff, Prod.mk.injEq, Prod.exists] at h
      obtain ⟨a', b', h', _, rfl⟩ := h
      have := ih h'
      simp only [List.length_cons]
      omega

/-- The text with its references resolved and every other character run through `plain`, which sees
the character behind it too. -/
def resolve? (plain : Char → Text → Text) (t : Text) : Option Text :=
  match t with
  | [] => some []
  | c :: rest =>
    if c = '&' then
      match h : cutSemicolon? rest with
      | none => none
      | some (body, rest') =>
        have := length_of_cutSemicolon? h
        match reference? body with
        | none => none
        | some d => (resolve? plain rest').map (d :: ·)
    else (resolve? plain rest).map (plain c rest ++ ·)
termination_by t.length

/-- A character of an attribute value: white space becomes a blank, a line break a single one. -/
def attributeCharacter (c : Char) (rest : Text) : Text :=
  if c = '\r' ∧ rest.head? = some '\n' then []
  else if isSpace c then [' ']
  else [c]

/-- The value of an attribute as written. -/
def attributeValue? (t : Text) : Option Text := resolve? attributeCharacter t

/-- Whether every reference of a text can be resolved. -/
def isResolvable (t : Text) : Bool := (resolve? (fun c _ => [c]) t).isSome

end ProseLint.Xml
