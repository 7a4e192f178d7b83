import ProseLint.Proofs.Markup.Visit
import ProseLint.Proofs.Sentence.Shares

/-!
# Sentences and paragraphs

The visit of a tree releases the text held back whenever it passes a boundary, so no sentence goes
across a boundary. A paragraph outside lists therefore shares no sentence with another one. Inside a
list a paragraph has no boundaries: the list item collects the text of all its paragraphs before
sentences are extracted from it.
-/
namespace ProseLint.Markup

namespace Compilation

variable {ctx : Context} {c c' : Compilation}

/-- The line of the leaf at a place. -/
def lineAt (ctx : Context) (here : Place) : ℕ := ctx.lines.lineNumber here.leaf

/-- Only the line and the text of a span matter for its marks. -/
theorem forall₂_marks_iff {α : Type*} {line : α → ℕ} {spans : List Span} {ms : List (Marked α)} :
    List.Forall₂ (Marks line) spans ms ↔
      List.Forall₂ (fun p m => Marked.text m = p.2 ∧ ∀ x ∈ m, line x.2 = p.1)
        (spans.map fun s => (s.line, s.text)) ms := by
  rw [List.forall₂_map_left_iff]
  exact ⟨fun h => h.imp fun _ _ hm => ⟨hm.text_eq, hm.line_eq⟩,
    fun h => h.imp fun _ _ hm => ⟨hm.1, hm.2⟩⟩

/-- Marked text dealt out to texts, none of which goes across a boundary. -/
def Undivided (ts : List Text) (m : Marked Place) : Prop :=
  ∃ shares, Deals ts m shares ∧
    ∀ share ∈ shares, ∀ x ∈ share, ∀ y ∈ share, x.2.boundaries = y.2.boundaries

theorem Undivided.append {ts us : List Text} {m n : Marked Place} (h : Undivided ts m)
    (h' : Undivided us n) : Undivided (ts ++ us) (m ++ n) := by
  obtain ⟨shares, hdeals, hlevel⟩ := h
  obtain ⟨shares', hdeals', hlevel'⟩ := h'
  refine ⟨shares ++ shares', hdeals.append hdeals', fun share hshare => ?_⟩
  rcases List.mem_append.mp hshare with hshare | hshare
  · exact hlevel share hshare
  · exact hlevel' share hshare

theorem Undivided.of_covered {line : Place → ℕ} {strict : Prop} {bs : List (Text × ℕ)}
    {m : Marked Place} {k : ℕ} (h : Covered line strict bs m)
    (hk : ∀ x ∈ m, x.2.boundaries = k) : Undivided (bs.map Prod.fst) m := by
  obtain ⟨shares, hdeals⟩ := h.exists_deals
  refine ⟨shares, hdeals, fun share hshare x hx y hy => ?_⟩
  rw [hk x (hdeals.mem_of_mem_share hshare hx), hk y (hdeals.mem_of_mem_share hshare hy)]

/-- The characters that have been taken in, up to boundary number `k`: those in the document are
not divided by boundaries, and the text held back stands behind the last boundary. -/
structure Parted (ctx : Context) (c : Compilation) (past : Marked Place) (k : ℕ) : Prop where
  exists_split : ∃ before ms, past = before ++ ms.flatten ∧
    Undivided (c.document.prose.map Prod.fst) before ∧
    List.Forall₂ (Marks (lineAt ctx)) c.held ms ∧ ∀ x ∈ ms.flatten, x.2.boundaries = k

namespace Parted

variable {past : Marked Place} {k : ℕ}

theorem start (name : Text) : Parted ctx { document := { name := name } } [] 0 :=
  ⟨[], [], rfl, ⟨[], .nil, by simp⟩, .nil, by simp⟩

theorem hold (h : Parted ctx c past k) {m : Marked Place} {offset : ℕ} {text : Text}
    (link : Option Text) (htext : Marked.text m = text) (hleaf : ∀ x ∈ m, x.2.leaf = offset)
    (hk : ∀ x ∈ m, x.2.boundaries = k) :
    Parted ctx (c.hold ctx offset text link) (past ++ m) k := by
  obtain ⟨before, ms, rfl, hbefore, hms, hlevel⟩ := h
  refine ⟨before, ms ++ [m], by simp, hbefore, ?_, ?_⟩
  · refine List.rel_append hms (.cons ⟨htext, fun x hx => ?_⟩ .nil)
    rw [lineAt, hleaf x hx]
  · intro x hx
    rw [List.flatten_append, List.flatten_singleton] at hx
    exact (List.mem_append.mp hx).elim (hlevel x) (hk x)

/-- Released text is not divided, for it stands between two boundaries. -/
theorem release (h : Parted ctx c past k) :
    Undivided ((c.document.prose ++ (c.release ctx).1.map Sentence.body).map Prod.fst) past := by
  obtain ⟨before, ms, rfl, hbefore, hms, hlevel⟩ := h
  rw [List.map_append]
  exact hbefore.append (.of_covered (covered_extract ctx.terminators hms) hlevel)

theorem passes {n : ℕ} (h : Parted ctx c past k) (hn : Passes ctx c c' n) :
    Parted ctx c' past (k + n) := by
  cases hn with
  | stay hprose hheld =>
    obtain ⟨before, ms, rfl, hbefore, hms, hlevel⟩ := h
    refine ⟨before, ms, rfl, hprose ▸ hbefore, ?_, hlevel⟩
    rw [forall₂_marks_iff] at hms ⊢
    rwa [hheld]
  | release hheld hprose =>
    exact ⟨past, [], by simp, hprose ▸ h.release, hheld ▸ .nil, by simp⟩

end Parted

mutual

/-- A visit takes in the characters of a node at their places. Whether a paragraph is in a list is
seen by the number of open lists. -/
theorem parted_visit {c : Compilation} {past : Marked Place} {here : Place}
    (h : Parted ctx c past here.boundaries) (hlist : here.inList = true ↔ c.listDepth ≠ 0)
    (path : List ℕ) : (n : Node) → Parted ctx (visit ctx c n) (past ++ n.places path here)
      (here.boundaries + n.boundaries here.inList)
  | .leaf l => by
    rw [Node.places, Node.boundaries]
    rcases visit_leaf ctx c l with ⟨link, hvisit⟩ | ⟨hempty, message, hvisit⟩
    · rw [hvisit]
      refine h.hold link (by simp [Marked.text, Function.comp_def]) ?_ ?_ <;> simp
    · rw [hvisit, hempty, List.map_nil, List.append_nil]
      exact h.passes (.stay rfl rfl)
  | .container kind children => by
    have henter : Parted ctx (enter ctx kind c) past (here.enter path kind).boundaries :=
      h.passes (passes_enter c hlist kind)
    have hinside : (here.enter path kind).inList = true ↔ (enter ctx kind c).listDepth ≠ 0 := by
      rw [Place.inList_enter, listDepth_enter]
      cases kind.isList <;> simp [hlist]
    have hchildren := parted_visitAll henter hinside path 0 children
    have hleave := hchildren.passes (passes_leave _ hlist kind)
    rw [visit_container, Node.places, Node.boundaries, ← Nat.add_assoc, ← Nat.add_assoc]
    exact hleave

theorem parted_visitAll {c : Compilation} {past : Marked Place} {here : Place}
    (h : Parted ctx c past here.boundaries) (hlist : here.inList = true ↔ c.listDepth ≠ 0)
    (path : List ℕ) (i : ℕ) : (ns : List Node) → Parted ctx (visitAll ctx c ns)
      (past ++ Node.placesOfAll path i here ns)
      (here.boundaries + Node.boundariesOfAll here.inList ns)
  | [] => by
    rw [visitAll, Node.placesOfAll, Node.boundariesOfAll, List.append_nil]
    exact h
  | n :: ns => by
    have hfirst : Parted ctx (visit ctx c n) (past ++ n.places (path ++ [i]) here)
        (here.pass (n.boundaries here.inList)).boundaries := parted_visit h hlist (path ++ [i]) n
    have hinside : here.inList = true ↔ (visit ctx c n).listDepth ≠ 0 := by
      rwa [listDepth_visit]
    have hrest := parted_visitAll hfirst hinside path (i + 1) ns
    rw [visitAll, Node.placesOfAll, Node.boundariesOfAll, ← List.append_assoc, ← Nat.add_assoc]
    exact hrest

end

end Compilation

theorem map_body_sentences_compile (ctx : Context) (name : Text) (tree : Node) :
    (compile ctx name tree).1.sentences.map Sentence.body = (compile ctx name tree).1.prose :=
  (nested_compile ctx name tree).map_body_sentences

/-- No sentence of a compiled document goes across a boundary. -/
theorem undivided_compile (ctx : Context) (name : Text) (tree : Node) :
    Compilation.Undivided ((compile ctx name tree).1.sentences.map (·.content))
      (tree.places [] {}) := by
  have hstart : Compilation.Parted ctx { document := { name := name } } []
      (Place.boundaries {}) := .start name
  have hvisit := Compilation.parted_visit hstart (by simp) [] tree
  have hprose : (compile ctx name tree).1.prose = _ := Document.prose_foldl_addSentence _ _
  rw [← map_fst_body, map_body_sentences_compile, hprose]
  exact hvisit.release

/-- When the paragraphs of a tree hold inline nodes only, a sentence that holds ink of two
paragraphs holds it from inside lists, and there is no boundary between the two. -/
theorem compile_divides_paragraphs (ctx : Context) (name : Text) (tree : Node)
    (h : tree.paragraphsInline = true) :
    (∃ shares, Deals ((compile ctx name tree).1.sentences.map (·.content)) (tree.places [] {})
      shares) ∧
    ∀ shares, Deals ((compile ctx name tree).1.sentences.map (·.content)) (tree.places [] {})
        shares →
      ∀ share ∈ shares, ∀ x ∈ share, ∀ y ∈ share, ∀ p q,
        x.2.paragraph = some p → y.2.paragraph = some q → p ≠ q →
          x.2.inList = true ∧ y.2.inList = true ∧ x.2.boundaries = y.2.boundaries := by
  obtain ⟨shares, hdeals, hlevel⟩ := undivided_compile ctx name tree
  have hspread := Node.spread_places [] {} rfl tree h
  refine ⟨⟨shares, hdeals⟩, fun shares' hdeals' share hshare x hx y hy p q hp hq hne => ?_⟩
  obtain rfl := hdeals.unique hdeals'
  have hsame := hlevel share hshare x hx y hy
  obtain ⟨hlistx, hlisty⟩ := hspread.apart x (hdeals.mem_of_mem_share hshare hx) y
    (hdeals.mem_of_mem_share hshare hy) p q hp hq hne hsame
  exact ⟨hlistx, hlisty, hsame⟩

/-- A quoted paragraph between two others, and a list item of two paragraphs. -/
theorem compile_divides_paragraphs_of_quote :
    let ctx : Context := ⟨.ofText "One\n\n> two.\n\nthree\n\n- four\n\n  five\n".toList, .fullStop⟩
    let paragraph (offset : ℕ) (t : String) : Node :=
      .container .paragraph [.container .emphasis [.text offset t.toList]]
    let tree : Node := .container .root [paragraph 0 "One", .container .quote [paragraph 7 "two."],
      paragraph 13 "three", .container .bulletList [.container .listItem
        [paragraph 22 "four", paragraph 30 "five"]]]
    tree.paragraphsInline = true ∧
    (∃ shares, Deals ((compile ctx [] tree).1.sentences.map (·.content)) (tree.places [] {})
      shares) ∧
    ∀ shares, Deals ((compile ctx [] tree).1.sentences.map (·.content)) (tree.places [] {})
        shares →
      ∀ share ∈ shares, ∀ x ∈ share, ∀ y ∈ share, ∀ p q,
        x.2.paragraph = some p → y.2.paragraph = some q → p ≠ q →
          x.2.inList = true ∧ y.2.inList = true ∧ x.2.boundaries = y.2.boundaries := by
  intro ctx paragraph tree
  exact ⟨rfl, compile_divides_paragraphs ctx [] tree rfl⟩

/-- Two paragraphs of one list item without a terminator in between become one sentence. -/
theorem paragraphs_of_list_item_meet :
    ¬ ∀ (ctx : Context) (name : Text) (tree : Node), tree.paragraphsInline = true →
      ∀ shares, Deals ((compile ctx name tree).1.sentences.map (·.content)) (tree.places [] {})
          shares →
        ∀ share ∈ shares, ∀ x ∈ share, ∀ y ∈ share, ∀ p q,
          x.2.paragraph = some p → y.2.paragraph = some q → p = q := by
  intro h
  let ctx : Context := ⟨.ofText "- one\n\n  two\n".toList, .fullStop⟩
  let tree : Node := .container .root [.container .bulletList [.container .listItem
    [.container .paragraph [.text 2 "one".toList], .container .paragraph [.text 9 "two".toList]]]]
  have hsentences : (compile ctx [] tree).1.sentences.map (·.content) = ["onetwo".toList] := by
    cbv
  have hink : Marked.ink (tree.places [] {}) = tree.places [] {} := by decide
  have hdeals : Deals ((compile ctx [] tree).1.sentences.map (·.content)) (tree.places [] {})
      [tree.places [] {}] := by
    rw [hsentences]
    exact ⟨by rw [hink, List.flatten_singleton], .cons rfl .nil⟩
  have hpaths := h ctx [] tree rfl _ hdeals (tree.places [] {}) (by simp)
    ('o', { leaf := 2, paragraph := some [0, 0, 0], inList := true, boundaries := 1 }) (by decide)
    ('o', { leaf := 9, paragraph := some [0, 0, 1], inList := true, boundaries := 1 }) (by decide)
    [0, 0, 0] [0, 0, 1] rfl rfl
  exact absurd hpaths (by decide)

end ProseLint.Markup
