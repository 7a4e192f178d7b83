import Mathlib.Data.List.TakeWhile
import Mathlib.Tactic
import ProseLint.Report.Json

/-!
# Reading JSON

A reader for the part of JSON that reports need: numbers are whole and have no sign, a character is
escaped by a letter or by four hexadecimal digits, and no object names a field twice. What is read
is JSON, and means the same to any reader. What the writer writes for a value is read as that value,
whatever stands behind it.
-/
namespace ProseLint.Report.Json

inductive Value where
  | null
  | boolean (b : Bool)
  | number (n : ℕ)
  | string (t : Text)
  | array (items : List Value)
  | object (fields : List (Text × Value))

/-- A blank between the parts of a value. -/
def isSpace (c : Char) : Bool := c == ' ' || c == '\t' || c == '\n' || c == '\r'

def skip (t : Text) : Text := t.dropWhile isSpace

def hexValue? (c : Char) : Option ℕ :=
  if c.isDigit then some (c.toNat - '0'.toNat)
  else if 'a' ≤ c ∧ c ≤ 'f' then some (c.toNat - 'a'.toNat + 10)
  else if 'A' ≤ c ∧ c ≤ 'F' then some (c.toNat - 'A'.toNat + 10)
  else none

/-- The character with a number of four hexadecimal digits. Half of a pair is none. -/
def fourDigits? (a b c d : Char) : Option Char :=
  match hexValue? a, hexValue? b, hexValue? c, hexValue? d with
  | some a, some b, some c, some d =>
    let n := 4096 * a + 256 * b + 16 * c + d
    if n.isValidChar then some (Char.ofNat n) else none
  | _, _, _, _ => none

/-- The character that a letter behind a backslash stands for. -/
def unescape? (c : Char) : Option Char :=
  if c = '"' ∨ c = '\\' ∨ c = '/' then some c
  else if c = 'b' then some '\x08'
  else if c = 'f' then some '\x0c'
  else if c = 'n' then some '\n'
  else if c = 'r' then some '\r'
  else if c = 't' then some '\t'
  else none

/-- The characters up to the quote that closes a string, and what stands behind it. A control
character does not stand for itself. -/
def chars? : Text → Option (Text × Text)
  | [] => none
  | '"' :: t => some ([], t)
  | '\\' :: 'u' :: a :: b :: c :: d :: t =>
    match fourDigits? a b c d with
    | some x => (chars? t).map fun r => (x :: r.1, r.2)
    | none => none
  | '\\' :: c :: t =>
    match unescape? c with
    | some x => (chars? t).map fun r => (x :: r.1, r.2)
    | none => none
  | c :: t => if c.toNat < 0x20 then none else (chars? t).map fun r => (c :: r.1, r.2)

/-- A number in decimal digits, without a zero in front of others. -/
def number? (t : Text) : Option (ℕ × Text) :=
  let digits := t.takeWhile Char.isDigit
  if digits = [] ∨ (digits.head? = some '0' ∧ digits ≠ ['0']) then none
  else some (Nat.ofDigitChars 10 digits 0, t.dropWhile Char.isDigit)

section

variable {α : Type}

/-- Some items with commas between them and a closing bracket behind the last. The first argument
but one bounds the number of items. -/
def items? (close : Char) (item? : Text → Option (α × Text)) : ℕ → Text → Option (List α × Text)
  | 0, _ => none
  | n + 1, t =>
    match item? t with
    | none => none
    | some (x, t) =>
      match skip t with
      | [] => none
      | c :: t =>
        if c = close then some ([x], t)
        else if c = ',' then (items? close item? n t).map fun r => (x :: r.1, r.2)
        else none

/-- Items up to a closing bracket, possibly none. -/
def list? (close : Char) (item? : Text → Option (α × Text)) (n : ℕ) (t : Text) :
    Option (List α × Text) :=
  match skip t with
  | [] => none
  | c :: u => if c = close then some ([], u) else items? close item? n t

end

/-- A name and a value. -/
def field? (value? : Text → Option (Value × Text)) (t : Text) :
    Option ((Text × Value) × Text) :=
  match skip t with
  | '"' :: t =>
    match chars? t with
    | none => none
    | some (key, t) =>
      match skip t with
      | ':' :: t => (value? t).map fun r => ((key, r.1), r.2)
      | _ => none
  | _ => none

/-- A value, and what stands behind it. The number bounds the depth of the value and the number of
items at each depth. -/
def value? : ℕ → Text → Option (Value × Text)
  | 0, _ => none
  | n + 1, t =>
    match skip t with
    | '"' :: t => (chars? t).map fun r => (.string r.1, r.2)
    | '[' :: t => (list? ']' (value? n) n t).map fun r => (.array r.1, r.2)
    | '\x7b' :: t =>
      match list? '\x7d' (field? (value? n)) n t with
      | none => none
      | some (fields, t) =>
        if (fields.map Prod.fst).Nodup then some (.object fields, t) else none
    | 't' :: 'r' :: 'u' :: 'e' :: t => some (.boolean true, t)
    | 'f' :: 'a' :: 'l' :: 's' :: 'e' :: t => some (.boolean false, t)
    | 'n' :: 'u' :: 'l' :: 'l' :: t => some (.null, t)
    | t => (number? t).map fun r => (.number r.1, r.2)

/-- The value of a whole text. -/
def read? (t : Text) : Option Value :=
  match value? t.length t with
  | some (v, rest) => if skip rest = [] then some v else none
  | none => none

/-! ## What the writer writes for one character or number -/

theorem hexValue?_hexDigit {n : ℕ} (h : n < 16) : hexValue? (hexDigit n) = some n := by
  revert n
  decide

theorem fourDigits?_hexDigit {c : Char} (h : c.toNat < 0x20) :
    fourDigits? '0' '0' (hexDigit (c.toNat / 16)) (hexDigit (c.toNat % 16)) = some c := by
  have hzero : hexValue? '0' = some 0 := by decide
  have hvalue : 16 * (c.toNat / 16) + c.toNat % 16 = c.toNat := Nat.div_add_mod _ _
  have hvalid : c.toNat.isValidChar := c.valid
  simp only [fourDigits?, hzero, hexValue?_hexDigit (show c.toNat / 16 < 16 by omega),
    hexValue?_hexDigit (show c.toNat % 16 < 16 by omega), Nat.mul_zero, Nat.zero_add, hvalue,
    if_pos hvalid, Char.ofNat_toNat]

/-- The escape of a character is read as the character. -/
theorem chars?_escape (c : Char) (t : Text) :
    chars? (escape c ++ t) = (chars? t).map fun r => (c :: r.1, r.2) := by
  unfold escape
  -- the characters that are escaped by a letter
  iterate 7
    split
    · subst_vars
      simp [chars?, unescape?]
  split
  · rename_i hcontrol
    simp [chars?, fourDigits?_hexDigit hcontrol]
  · rename_i hquote hbackslash _ _ _ _ _ hcontrol
    rw [List.singleton_append, chars?]
    · rw [if_neg hcontrol]
    · simpa using hquote
    · simp_all
    · simp_all

theorem chars?_flatMap_escape (t rest : Text) :
    chars? (t.flatMap escape ++ '"' :: rest) = some (t, rest) := by
  induction t with
  | nil => simp [chars?]
  | cons c t ih => rw [List.flatMap_cons, List.append_assoc, chars?_escape, ih]; rfl

/-- Only the number zero begins with a zero. -/
theorem head?_ofNat {n : ℕ} (h : (Text.ofNat n).head? = some '0') : n = 0 := by
  induction n using Nat.strong_induction_on with
  | _ n ih =>
    by_cases hn : n < 10
    · rw [Text.ofNat, Nat.toDigits_of_lt_base hn] at h
      simpa using h
    · rw [Text.ofNat, Nat.toDigits_of_base_le (by decide) (by omega), List.head?_append] at h
      have hne : (Nat.toDigits 10 (n / 10)).head? ≠ none := by simp [Nat.toDigits_ne_nil]
      obtain ⟨d, hd⟩ := Option.ne_none_iff_exists'.mp hne
      have hzero := ih (n / 10) (by omega) (by simpa [Text.ofNat, hd] using h)
      omega

/-- What may stand behind a number: anything but a digit. -/
def NoDigit (t : Text) : Prop := ∀ c ∈ t.head?, c.isDigit = false

theorem number?_ofNat (n : ℕ) {rest : Text} (h : NoDigit rest) :
    number? (Text.ofNat n ++ rest) = some (n, rest) := by
  have hdigits : ∀ c ∈ Text.ofNat n, c.isDigit = true := fun c hc =>
    Nat.isDigit_of_mem_toDigits (by decide) (by decide) hc
  have htake : rest.takeWhile Char.isDigit = [] ∧ rest.dropWhile Char.isDigit = rest := by
    cases rest with
    | nil => simp
    | cons c rest => simp [h c (by simp)]
  have hrun : (Text.ofNat n ++ rest).takeWhile Char.isDigit = Text.ofNat n := by
    rw [List.takeWhile_append_of_pos hdigits, htake.1, List.append_nil]
  have hrest : (Text.ofNat n ++ rest).dropWhile Char.isDigit = rest := by
    rw [List.dropWhile_append_of_pos hdigits, htake.2]
  have hne : Text.ofNat n ≠ [] := Nat.toDigits_ne_nil
  have hzero : ¬ ((Text.ofNat n).head? = some '0' ∧ Text.ofNat n ≠ ['0']) := by
    rintro ⟨hhead, hzero⟩
    obtain rfl := head?_ofNat hhead
    exact hzero (Nat.toDigits_zero 10)
  rw [number?]
  simp only [hrun, hrest]
  rw [if_neg (by tauto), Text.ofNat, Nat.ofDigitChars_ten_toDigits]

/-- Nothing but blanks. -/
def Spaces (w : Text) : Prop := ∀ c ∈ w, isSpace c = true

theorem spaces_nil : Spaces [] := by simp [Spaces]

theorem skip_append {w : Text} (hw : Spaces w) (t : Text) : skip (w ++ t) = skip t :=
  List.dropWhile_append_of_pos hw

theorem skip_eq_nil_iff {t : Text} : skip t = [] ↔ Spaces t := by
  simp [skip, Spaces, List.dropWhile_eq_nil_iff]

theorem skip_cons {c : Char} (hc : isSpace c = false) (t : Text) : skip (c :: t) = c :: t := by
  simp [skip, hc]

theorem noDigit_cons {c : Char} (hc : c.isDigit = false) (t : Text) : NoDigit (c :: t) := by
  simpa [NoDigit] using hc

theorem isDigit_of_isSpace {c : Char} (hc : isSpace c = true) : c.isDigit = false := by
  simp only [isSpace, Bool.or_eq_true, beq_iff_eq] at hc
  rcases hc with ((rfl | rfl) | rfl) | rfl <;> rfl

theorem noDigit_append {w t : Text} (hw : Spaces w) (ht : NoDigit t) : NoDigit (w ++ t) := by
  cases w with
  | nil => exact ht
  | cons c w => exact noDigit_cons (isDigit_of_isSpace (hw c (by simp))) _

/-- What ends a list of items: no comma, no blank and no digit. -/
structure Closes (close : Char) : Prop where
  ne_comma : close ≠ ','
  isSpace_eq : isSpace close = false
  isDigit_eq : close.isDigit = false

theorem closes_bracket : Closes ']' := ⟨by decide, rfl, rfl⟩

theorem closes_brace : Closes '\x7d' := ⟨by decide, rfl, rfl⟩

section

variable {α : Type} {item? : Text → Option (α × Text)} {close : Char} {w w₁ w₂ : Text}
  {ts : List Text} {xs : List α}

/-- A text is read as an item, whatever blanks stand before it and whatever stands behind it. -/
def Reads (item? : Text → Option (α × Text)) (t : Text) (x : α) : Prop :=
  ∀ w rest, Spaces w → NoDigit rest → item? (w ++ (t ++ rest)) = some (x, rest)

theorem items?_joinWith (hclose : Closes close) (hw₁ : Spaces w₁) (hw₂ : Spaces w₂)
    (h : List.Forall₂ (Reads item?) ts xs) (hts : ts ≠ []) {n : ℕ} (hn : ts.length ≤ n)
    (hw : Spaces w) (rest : Text) :
    items? close item? n (w ++ (Text.joinWith (',' :: w₁) ts ++ (w₂ ++ close :: rest))) =
      some (xs, rest) := by
  induction h generalizing w n with
  | nil => exact absurd rfl hts
  | @cons t x ts xs hread htail ih =>
    obtain ⟨m, rfl⟩ : ∃ m, n = m + 1 := ⟨n - 1, by simp only [List.length_cons] at hn; omega⟩
    cases htail with
    | nil =>
      have hbehind : NoDigit (w₂ ++ close :: rest) :=
        noDigit_append hw₂ (noDigit_cons hclose.isDigit_eq rest)
      simp only [items?, Text.joinWith, hread w _ hw hbehind, skip_append hw₂,
        skip_cons hclose.isSpace_eq, if_true]
    | @cons u y ts xs hread' htail =>
      have hbehind : NoDigit (',' :: (w₁ ++ (Text.joinWith (',' :: w₁) (u :: ts) ++
          (w₂ ++ close :: rest)))) := noDigit_cons rfl _
      have hitem := hread w _ hw hbehind
      have htext : t ++ (',' :: (w₁ ++ (Text.joinWith (',' :: w₁) (u :: ts) ++
          (w₂ ++ close :: rest)))) = Text.joinWith (',' :: w₁) (t :: u :: ts) ++
            (w₂ ++ close :: rest) := by
        simp [Text.joinWith]
      rw [htext] at hitem
      have hrest := ih (by simp) (n := m) (by simpa using hn) hw₁
      simp only [items?, hitem, skip_cons (show isSpace ',' = false from rfl),
        if_neg hclose.ne_comma.symm, if_true, hrest, Option.map_some]

/-- The texts of items are no brackets that close the list. -/
theorem list?_joinWith (hclose : Closes close)
    (hitem : ∀ t u, skip t = close :: u → item? t = none) (hw₁ : Spaces w₁) (hw₂ : Spaces w₂)
    (h : List.Forall₂ (Reads item?) ts xs) {n : ℕ} (hn : ts.length ≤ n)
    (hw : Spaces w) (rest : Text) :
    list? close item? n (w ++ (Text.joinWith (',' :: w₁) ts ++ (w₂ ++ close :: rest))) =
      some (xs, rest) := by
  cases h with
  | nil =>
    simp only [list?, Text.joinWith, List.nil_append, skip_append hw, skip_append hw₂,
      skip_cons hclose.isSpace_eq, if_true]
  | @cons t x ts xs hread htail =>
    have hitems := items?_joinWith hclose hw₁ hw₂ (.cons hread htail) (by simp) hn hw rest
    obtain ⟨m, rfl⟩ : ∃ m, n = m + 1 := ⟨n - 1, by simp only [List.length_cons] at hn; omega⟩
    -- the first item is read, so its text begins, and with no closing bracket
    have hsome : item? (w ++ (Text.joinWith (',' :: w₁) (t :: ts) ++ (w₂ ++ close :: rest))) ≠
        none := by
      intro hnone
      simp [items?, hnone] at hitems
    unfold list?
    split
    · rename_i hskip
      have hspace := skip_eq_nil_iff.mp hskip close (by simp)
      simp [hclose.isSpace_eq] at hspace
    · rename_i c u hskip
      split
      · rename_i hc
        subst hc
        exact absurd (hitem _ u hskip) hsome
      · exact hitems

end

theorem length_le_joinWith (sep : Text) {ts : List Text} {t : Text} (ht : t ∈ ts) :
    t.length ≤ (Text.joinWith sep ts).length := by
  induction ts with
  | nil => simp at ht
  | cons u ts ih =>
    cases ts with
    | nil => simp_all [Text.joinWith]
    | cons v ts =>
      simp only [Text.joinWith, List.length_append]
      rcases List.mem_cons.mp ht with rfl | ht
      · omega
      · have := ih ht
        omega

theorem length_le_length_joinWith (w : Text) (ts : List Text) :
    ts.length ≤ (Text.joinWith (',' :: w) ts).length + 1 := by
  induction ts with
  | nil => simp
  | cons u ts ih =>
    cases ts with
    | nil => simp
    | cons v ts =>
      simp only [Text.joinWith, List.length_append, List.length_cons] at ih ⊢
      omega

/-- A text is read as a value by every reader that may go as far as the text is long. -/
def Denotes (t : Text) (v : Value) : Prop := ∀ n, t.length ≤ n → Reads (value? n) t v

theorem denotes_string (t : Text) : Denotes (string t) (.string t) := by
  intro n hn w rest hw _
  obtain ⟨m, rfl⟩ : ∃ m, n = m + 1 := ⟨n - 1, by simp [string] at hn; omega⟩
  have htext : string t ++ rest = '"' :: (t.flatMap escape ++ '"' :: rest) := by simp [string]
  simp only [value?, htext, skip_append hw, skip_cons (show isSpace '"' = false from rfl),
    chars?_flatMap_escape, Option.map_some]

theorem denotes_boolean (b : Bool) : Denotes (boolean b) (.boolean b) := by
  intro n hn w rest hw _
  cases b with
  | true =>
    have htext : boolean true = ['t', 'r', 'u', 'e'] := by decide
    rw [htext] at hn ⊢
    obtain ⟨m, rfl⟩ : ∃ m, n = m + 1 := ⟨n - 1, by simp at hn; omega⟩
    simp [value?, skip_append hw, skip_cons (show isSpace 't' = false from rfl)]
  | false =>
    have htext : boolean false = ['f', 'a', 'l', 's', 'e'] := by decide
    rw [htext] at hn ⊢
    obtain ⟨m, rfl⟩ : ∃ m, n = m + 1 := ⟨n - 1, by simp at hn; omega⟩
    simp [value?, skip_append hw, skip_cons (show isSpace 'f' = false from rfl)]

theorem isSpace_of_isDigit {c : Char} (hc : c.isDigit = true) : isSpace c = false := by
  by_contra hne
  simp [isDigit_of_isSpace (by simpa using hne)] at hc

/-- What begins with a digit is a number. -/
theorem value?_of_digit {t u : Text} {c : Char} (hskip : skip t = c :: u)
    (hc : c.isDigit = true) (n : ℕ) :
    value? (n + 1) t = (number? (c :: u)).map fun r => (.number r.1, r.2) := by
  rw [value?, hskip]
  split <;> first | rfl | (rename_i heq; rw [List.cons.injEq] at heq; rw [heq.1] at hc; simp at hc)

theorem denotes_number (k : ℕ) : Denotes (number k) (.number k) := by
  intro n hn w rest hw hrest
  have hread := number?_ofNat k hrest
  rw [number] at hn ⊢
  cases hdigits : Text.ofNat k with
  | nil => exact absurd hdigits Nat.toDigits_ne_nil
  | cons c digits =>
    have hc : c.isDigit = true := Nat.isDigit_of_mem_toDigits (by decide) (by decide)
      (show c ∈ Text.ofNat k by simp [hdigits])
    rw [hdigits] at hn hread
    obtain ⟨m, rfl⟩ : ∃ m, n = m + 1 := ⟨n - 1, by simp at hn; omega⟩
    have hskip : skip (w ++ (c :: digits ++ rest)) = c :: (digits ++ rest) := by
      rw [skip_append hw, List.cons_append, skip_cons (isSpace_of_isDigit hc)]
    rw [value?_of_digit hskip hc, ← List.cons_append, hread, Option.map_some]

theorem value?_bracket (n : ℕ) {t u : Text} (h : skip t = ']' :: u) : value? n t = none := by
  cases n with
  | zero => rfl
  | succ n => simp [value?, h, number?]

theorem field?_brace {read? : Text → Option (Value × Text)} {t u : Text}
    (h : skip t = '\x7d' :: u) : field? read? t = none := by
  simp [field?, h]

/-- An array of items with blanks behind its brackets and commas. -/
theorem denotes_array {ts : List Text} {vs : List Value} (h : List.Forall₂ Denotes ts vs)
    {w₀ w₁ w₂ : Text} (hw₀ : Spaces w₀) (hw₁ : Spaces w₁) (hw₂ : Spaces w₂) :
    Denotes ('[' :: (w₀ ++ (Text.joinWith (',' :: w₁) ts ++ (w₂ ++ [']'])))) (.array vs) := by
  intro n hn w rest hw _
  simp only [List.length_cons, List.length_append, List.length_nil] at hn
  obtain ⟨m, rfl⟩ : ∃ m, n = m + 1 := ⟨n - 1, by omega⟩
  have hreads : List.Forall₂ (Reads (value? m)) ts vs := by
    refine (List.forall₂_iff_zip.mp h).elim fun hlen hzip => List.forall₂_iff_zip.mpr ⟨hlen, ?_⟩
    intro t v htv
    have := length_le_joinWith (',' :: w₁) (List.of_mem_zip htv).1
    exact hzip htv m (by omega)
  have hcount := length_le_length_joinWith w₁ ts
  have hlist := list?_joinWith closes_bracket (fun t u => value?_bracket m) hw₁ hw₂ hreads
    (n := m) (by omega) hw₀ rest
  have htext : '[' :: (w₀ ++ (Text.joinWith (',' :: w₁) ts ++ (w₂ ++ [']']))) ++ rest =
      '[' :: (w₀ ++ (Text.joinWith (',' :: w₁) ts ++ (w₂ ++ ']' :: rest))) := by simp
  rw [htext]
  simp only [value?, skip_append hw, skip_cons (show isSpace '[' = false from rfl), hlist,
    Option.map_some]

theorem denotes_array_compact {ts : List Text} {vs : List Value} (h : List.Forall₂ Denotes ts vs) :
    Denotes (array ts) (.array vs) := by
  simpa [array] using denotes_array h spaces_nil spaces_nil spaces_nil

/-- A field as it stands in an object. -/
def fieldText (f : String × Text) : Text := string f.1.toList ++ [':'] ++ f.2

theorem reads_fieldText {read? : Text → Option (Value × Text)} {f : String × Text} {v : Value}
    (h : Reads read? f.2 v) : Reads (field? read?) (fieldText f) (f.1.toList, v) := by
  intro w rest hw hrest
  have htext : fieldText f ++ rest =
      '"' :: (f.1.toList.flatMap escape ++ '"' :: ':' :: (f.2 ++ rest)) := by
    simp [fieldText, string]
  have hvalue := h [] rest spaces_nil hrest
  rw [List.nil_append] at hvalue
  rw [htext]
  simp only [field?, skip_append hw, skip_cons (show isSpace '"' = false from rfl),
    chars?_flatMap_escape, skip_cons (show isSpace ':' = false from rfl), hvalue, Option.map_some]

/-- An object whose fields have names of their own. -/
theorem denotes_object (names : List String) {fields : List (String × Text)} {vs : List Value}
    (hnames : fields.map Prod.fst = names) (hnodup : (names.map String.toList).Nodup)
    (h : List.Forall₂ (fun f v => Denotes f.2 v) fields vs) :
    Denotes (object fields) (.object ((names.map String.toList).zip vs)) := by
  subst hnames
  intro n hn w rest hw _
  have htext : object fields =
      '\x7b' :: (Text.joinWith [','] (fields.map fieldText) ++ ['\x7d']) := rfl
  rw [htext] at hn ⊢
  simp only [List.length_cons, List.length_append, List.length_nil] at hn
  obtain ⟨m, rfl⟩ : ∃ m, n = m + 1 := ⟨n - 1, by omega⟩
  have hcount := length_le_length_joinWith [] (fields.map fieldText)
  have hlength : ∀ f ∈ fields, f.2.length ≤ m := by
    intro f hf
    have := length_le_joinWith [','] (List.mem_map_of_mem (f := fieldText) hf)
    simp only [fieldText, List.length_append] at this
    omega
  have hreads : List.Forall₂ (Reads (field? (value? m))) (fields.map fieldText)
      (((fields.map Prod.fst).map String.toList).zip vs) := by
    clear hn htext hcount hnodup
    induction h with
    | nil => exact .nil
    | @cons f v fields vs hv _ ih =>
      obtain ⟨hf, hfields⟩ := List.forall_mem_cons.mp hlength
      exact .cons (reads_fieldText (hv m hf)) (ih hfields)
  have hlist := list?_joinWith closes_brace (fun t u => field?_brace) spaces_nil spaces_nil hreads
    (n := m) (by omega) spaces_nil rest
  have hkeys : ((((fields.map Prod.fst).map String.toList).zip vs).map Prod.fst).Nodup := by
    rwa [List.map_fst_zip (by simp [h.length_eq])]
  simp only [List.nil_append] at hlist
  simp only [List.cons_append, List.append_assoc, List.nil_append, value?, skip_append hw,
    skip_cons (show isSpace '\x7b' = false from rfl), hlist, if_pos hkeys]

/-- A text that denotes a value is read as it, with blanks behind it or not. -/
theorem read?_of_denotes {t w : Text} {v : Value} (h : Denotes t v) (hw : Spaces w) :
    read? (t ++ w) = some v := by
  have hbehind : NoDigit (w ++ []) := noDigit_append hw (by simp [NoDigit])
  rw [List.append_nil] at hbehind
  have hread := h (t ++ w).length (by simp) [] w spaces_nil hbehind
  rw [List.nil_append] at hread
  simp only [read?, hread, if_pos (skip_eq_nil_iff.mpr hw)]

end ProseLint.Report.Json
