import ProseLint.Xml.Reference

/-!
# XML tokens

A document is a sequence of tags, character data, comments and processing instructions. A token
remembers how many line feeds stand behind its start, from which its row follows.
-/
namespace ProseLint.Xml

inductive Token where
  | openTag (name : QName) (attributes : List (QName × Text)) (closed : Bool)
  | closeTag (name : QName)
  /-- Character data outside `CDATA`. -/
  | text (t : Text)
  | cdata
  /-- A comment or a processing instruction. -/
  | remark
  deriving DecidableEq, Repr

/-- The text before the first occurrence of a mark, and what follows the mark. -/
def cutAfter? (mark : Text) : Text → Option (Text × Text)
  | [] => if mark.isEmpty then some ([], []) else none
  | c :: t =>
    match Text.dropStart? mark (c :: t) with
    | some rest => some ([], rest)
    | none => (cutAfter? mark t).map fun r => (c :: r.1, r.2)

theorem length_of_dropStart? {mark t r : Text} (h : Text.dropStart? mark t = some r) :
    r.length + mark.length = t.length := by
  simp only [Text.dropStart?] at h
  split at h
  · rename_i hp
    simp only [Option.some.injEq] at h
    have := (List.isPrefixOf_iff_prefix.mp hp).length_le
    rw [← h, List.length_drop]
    omega
  · simp at h

theorem length_of_cutAfter? {mark t a b : Text} (h : cutAfter? mark t = some (a, b)) :
    b.length + mark.length ≤ t.length := by
  induction t generalizing a with
  | nil =>
    simp only [cutAfter?] at h
    split at h
    · rename_i he
      simp only [Option.some.injEq, Prod.mk.injEq] at h
      have : mark = [] := by simpa using he
      simp [← h.2, this]
    · simp at h
  | cons c t ih =>
    simp only [cutAfter?] at h
    split at h
    · rename_i r hr
      simp only [Option.some.injEq, Prod.mk.injEq] at h
      have := length_of_dropStart? hr
      rw [← h.2]
      omega
    · simp only [Option.map_eq_some_iff, Prod.mk.injEq, Prod.exists] at h
      obtain ⟨a', b', h', _, rfl⟩ := h
      have := ih h'
      simp only [List.length_cons]
      omega

/-- An attribute: a name, an equals sign and a quoted value without `<`. -/
def attribute? (t : Text) : Option ((QName × Text) × Text) :=
  match qname? t with
  | none => none
  | some (name, rest) =>
    match skipSpaces rest with
    | '=' :: rest =>
      match skipSpaces rest with
      | [] => none
      | quote :: rest =>
        if quote = '"' ∨ quote = '\'' then
          match cutAfter? [quote] rest with
          | none => none
          | some (raw, rest) =>
            if raw.contains '<' || !raw.all isCharacter then none
            else (attributeValue? raw).map fun value => ((name, value), rest)
        else none
    | _ => none

theorem length_of_attribute? {t r : Text} {a : QName × Text} (h : attribute? t = some (a, r)) :
    r.length < t.length := by
  simp only [attribute?] at h
  split at h
  · simp at h
  · rename_i name rest hn
    have l1 := length_of_qname? hn
    split at h
    · rename_i rest2 hs
      have l2 := length_skipSpaces_le rest
      rw [hs] at l2
      simp only [List.length_cons] at l2
      split at h
      · simp at h
      · rename_i quote rest3 hq
        have l3 := length_skipSpaces_le rest2
        rw [hq] at l3
        simp only [List.length_cons] at l3
        split at h
        · split at h
          · simp at h
          · rename_i raw rest4 hc
            have l4 := length_of_cutAfter? hc
            split at h
            · simp at h
            · simp only [Option.map_eq_some_iff, Prod.mk.injEq] at h
              obtain ⟨_, _, _, rfl⟩ := h
              omega
        · simp at h
    · simp at h

/-- The attributes of a tag, each behind white space, whether the tag closes itself, and what
follows it. -/
def attributes? (t : Text) : Option (List (QName × Text) × Bool × Text) :=
  match skipSpaces t with
  | '/' :: '>' :: rest => some ([], true, rest)
  | '>' :: rest => some ([], false, rest)
  | _ =>
    if (t.head?.map isSpace).getD false then
      match h : attribute? (skipSpaces t) with
      | none => none
      | some (a, rest) =>
        have : rest.length < t.length :=
          Nat.lt_of_lt_of_le (length_of_attribute? h) (length_skipSpaces_le t)
        match attributes? rest with
        | none => none
        | some (as, closed, rest) => some (a :: as, closed, rest)
    else none
termination_by t.length

def openTag? (t : Text) : Option (Token × Text) :=
  match qname? t with
  | none => none
  | some (name, rest) =>
    match attributes? rest with
    | none => none
    | some (as, closed, rest) => some (.openTag name as closed, rest)

def closeTag? (t : Text) : Option (Token × Text) :=
  match qname? t with
  | none => none
  | some (name, rest) =>
    match skipSpaces rest with
    | '>' :: rest => some (.closeTag name, rest)
    | _ => none

/-- The rest of a comment, in which two hyphens do not meet. -/
def comment? (t : Text) : Option (Token × Text) :=
  match cutAfter? "-->".toList t with
  | none => none
  | some (body, rest) =>
    if body.all isCharacter && !Text.hasFactor "--".toList body && body.getLast? != some '-' then
      some (.remark, rest)
    else none

/-- The rest of a processing instruction, which begins with its target's name. -/
def instruction? (t : Text) : Option (Token × Text) :=
  if (t.head?.map isNameStart).getD false then
    match cutAfter? "?>".toList (t.dropWhile isNameCharacter) with
    | none => none
    | some (body, rest) => if body.all isCharacter then some (.remark, rest) else none
  else none

def cdata? (t : Text) : Option (Token × Text) :=
  match cutAfter? "]]>".toList t with
  | none => none
  | some (body, rest) => if body.all isCharacter then some (.cdata, rest) else none

/-- Character data up to the next markup. -/
def text? (t : Text) : Option (Token × Text) :=
  let body := t.takeWhile (· != '<')
  if body.isEmpty || !body.all isCharacter || Text.hasFactor "]]>".toList body ||
      !isResolvable body then none
  else some (.text body, t.dropWhile (· != '<'))

/-- The token at the front of a text. The declaration of the document is not a token. -/
def token? (t : Text) : Option (Token × Text) :=
  match t with
  | '<' :: '!' :: '-' :: '-' :: rest => comment? rest
  | '<' :: '!' :: '[' :: 'C' :: 'D' :: 'A' :: 'T' :: 'A' :: '[' :: rest => cdata? rest
  | '<' :: '?' :: 'x' :: 'm' :: 'l' :: ' ' :: _ => none
  | '<' :: '?' :: rest => instruction? rest
  | '<' :: '/' :: rest => closeTag? rest
  | '<' :: rest => openTag? rest
  | _ => text? t

/-- The tokens of a text, each with the number of line feeds from its start on. -/
def tokens? (t : Text) : Option (List (Token × Nat)) :=
  if t.isEmpty then some []
  else
    match token? t with
    | none => none
    | some (token, rest) =>
      if rest.length < t.length then (tokens? rest).map ((token, t.count '\n') :: ·) else none
termination_by t.length

/-- White space, or the end of the declaration ahead. -/
def declarationGap? (t : Text) : Option Text :=
  if (t.head?.map isSpace).getD false then some (skipSpaces t)
  else if "?>".toList.isPrefixOf t then some t
  else none

/-- What follows an attribute of the declaration and the gap behind it. -/
def declarationPart? (t : Text) : Option Text :=
  match attribute? t with
  | none => none
  | some (_, rest) => some rest

/-- What follows an attribute that need not be there. -/
def optionalPart? (name : Text) (t : Text) : Option Text :=
  if name.isPrefixOf t then
    match declarationPart? t with
    | none => none
    | some rest => declarationGap? rest
  else some t

/-- What follows the declaration of the document, if the text begins with one. -/
def skipDeclaration? (t : Text) : Option Text :=
  match Text.dropStart? "<?xml ".toList t with
  | none => some t
  | some rest =>
    let start := skipSpaces rest
    if "version".toList.isPrefixOf start then
      match declarationPart? start with
      | none => none
      | some rest =>
        match declarationGap? rest with
        | none => none
        | some rest =>
          match optionalPart? "encoding".toList rest with
          | none => none
          | some rest =>
            let rest := if "standalone".toList.isPrefixOf rest then declarationPart? rest
              else some rest
            match rest with
            | none => none
            | some rest => Text.dropStart? "?>".toList (skipSpaces rest)
    else none

end ProseLint.Xml
