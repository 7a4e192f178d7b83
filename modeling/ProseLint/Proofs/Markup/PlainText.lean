import ProseLint.Parse
import ProseLint.Proofs.Markup.Visit
import ProseLint.Proofs.Sentence.Fragments

/-!
# The document of a plain text

The paragraphs of a plain text are the runs of lines between blank lines. They stand in one section,
a preamble, which is there as soon as there is a run. A paragraph says what its lines, joined by
spaces, say as one span, and its indent is all of the blanks in front.
-/
namespace ProseLint

theorem splitOnP_map {α β : Type*} (f : α → β) (p : β → Bool) (l : List α) :
    (l.map f).splitOnP p = (l.splitOnP (p ∘ f)).map (List.map f) := by
  induction l with
  | nil => simp
  | cons a l ih =>
    rw [List.map_cons, List.splitOnP_cons_eq_if_modifyHead, List.splitOnP_cons_eq_if_modifyHead, ih]
    by_cases ha : p (f a) = true
    · simp [ha]
    · cases l.splitOnP (p ∘ f) <;> simp [ha]

/-- The runs of lines between blank lines. -/
def runs (ls : List Text) : List (List Text) := (ls.splitOnP Text.allBlank).filter (· ≠ [])

theorem flatten_splitOnP {α : Type*} (p : α → Bool) (l : List α) :
    (l.splitOnP p).flatten = l.filter fun a => !p a := by
  induction l with
  | nil => simp
  | cons a l ih =>
    rw [List.splitOnP_cons_eq_if_modifyHead, List.filter_cons, ← ih]
    by_cases ha : p a = true
    · simp [ha]
    · obtain ⟨first, rest, hsplit⟩ := List.exists_cons_of_ne_nil (List.splitOnP_ne_nil p l)
      simp [ha, hsplit]

/-- The lines of the runs are those that are not blank. -/
theorem flatten_runs (ls : List Text) :
    (runs ls).flatten = ls.filter fun l => !Text.allBlank l := by
  rw [← flatten_splitOnP]
  exact List.flatten_filter_ne_nil

theorem ne_nil_of_mem_runs {ls run : List Text} (h : run ∈ runs ls) : run ≠ [] := by
  simpa using (List.mem_filter.mp h).2

theorem allBlank_of_mem_runs {ls run : List Text} {l : Text} (h : run ∈ runs ls) (hl : l ∈ run) :
    Text.allBlank l = false := by
  have hmem := List.mem_flatten_of_mem h hl
  rw [flatten_runs] at hmem
  simpa using (List.mem_filter.mp hmem).2

/-- There is no run when every line is blank. -/
theorem runs_eq_nil_iff {ls : List Text} : runs ls = [] ↔ ∀ l ∈ ls, Text.allBlank l = true := by
  have hall : (runs ls).flatten = [] ↔ ∀ l ∈ ls, Text.allBlank l = true := by
    rw [flatten_runs, List.filter_eq_nil_iff]
    simp
  rw [← hall]
  refine ⟨fun h => by rw [h, List.flatten_nil], fun h => ?_⟩
  rw [List.eq_nil_iff_forall_not_mem]
  intro run hrun
  obtain ⟨l, rest, rfl⟩ := List.exists_cons_of_ne_nil (ne_nil_of_mem_runs hrun)
  have hmem := List.mem_flatten_of_mem hrun List.mem_cons_self
  simp [h] at hmem

namespace Document

/-- A document of the preamble alone; without blocks there is not even that. -/
def ofBlocks (name : Text) (blocks : List Block) : Document :=
  if blocks = [] then { name := name }
  else { name := name, sections := [{ level := 0, header := [], blocks := blocks }], roots := [0] }

variable {name : Text} {blocks : List Block} {p : Paragraph}

theorem addParagraph_ofBlocks (name : Text) (blocks : List Block) :
    (ofBlocks name blocks).addParagraph = ofBlocks name (blocks ++ [.paragraph {}]) := by
  by_cases hblocks : blocks = [] <;>
    simp [ofBlocks, hblocks, addParagraph, modifyCurrent, withSection, addSection, addRoot,
      Section.pushBlock]

theorem addSentence_ofBlocks (x : Sentence) :
    (ofBlocks name (blocks ++ [.paragraph p])).addSentence x =
      ofBlocks name (blocks ++ [.paragraph { p with
        sentences := p.sentences ++ [{ x with isFirst := p.sentences.isEmpty }] }]) := by
  simp [ofBlocks, addSentence, modifyCurrent, withSection, Section.addSentence,
    Section.modifyLastBlock]

theorem setIndent_ofBlocks (indent : Text) :
    (ofBlocks name (blocks ++ [.paragraph p])).setIndent indent =
      ofBlocks name (blocks ++ [.paragraph { p with indent := indent }]) := by
  simp [ofBlocks, setIndent, modifyCurrent, withSection, Section.setIndent,
    Section.modifyLastBlock]

theorem foldl_addSentence_ofBlocks (name : Text) (blocks : List Block)
    (xs : List Sentence) (p : Paragraph) :
    ∃ p', xs.foldl (fun d x => d.addSentence x) (ofBlocks name (blocks ++ [.paragraph p])) =
        ofBlocks name (blocks ++ [.paragraph p']) ∧ p'.indent = p.indent ∧
      p'.sentences.map (·.content) = p.sentences.map (·.content) ++ xs.map (·.content) := by
  induction xs generalizing p with
  | nil => exact ⟨p, rfl, rfl, by simp⟩
  | cons x xs ih =>
    rw [List.foldl_cons, addSentence_ofBlocks]
    obtain ⟨p', hdocument, hindent, hcontents⟩ := ih _
    exact ⟨p', hdocument, hindent, by simpa using hcontents⟩

end Document

namespace Markup

variable {ctx : Context}

namespace Compilation

/-- Text leaves are held back as they are. -/
theorem visitAll_texts (pieces : List (ℕ × Text)) (c : Compilation) :
    visitAll ctx c (pieces.map fun p => .text p.1 p.2) =
      { c with held := c.held ++ pieces.map fun p => ⟨ctx.lines.lineNumber p.1, p.2, none⟩ } := by
  induction pieces generalizing c with
  | nil => simp [visitAll]
  | cons p pieces ih =>
    rw [List.map_cons, visitAll, Node.text, visit, ih]
    simp [hold]

theorem visit_paragraph {name : Text} {blocks : List Block} {c : Compilation} (hc : c.Idle)
    (hdocument : c.document = .ofBlocks name blocks) (pieces : List (ℕ × Text)) :
    ∃ p, (visit ctx c (.container .paragraph (pieces.map fun p => .text p.1 p.2))).document =
        .ofBlocks name (blocks ++ [.paragraph p]) ∧
      (visit ctx c (.container .paragraph (pieces.map fun p => .text p.1 p.2))).Idle ∧
      p.indent = (pieces.flatMap (·.2)).takeWhile isBlank ∧
      p.sentences.map (·.content) = (extract ctx.terminators
        (pieces.map fun p => ⟨ctx.lines.lineNumber p.1, p.2, none⟩)).map (·.content) := by
  have hheld : c.held = [] := hc.held
  have hdepth : c.listDepth = 0 := hc.listDepth
  have henter : enter ctx .paragraph c =
      { c with document := .ofBlocks name (blocks ++ [.paragraph {}]) } := by
    rw [← Document.addParagraph_ofBlocks, ← hdocument, enter, if_pos hdepth,
      flush_of_held_nil hheld]
    rfl
  obtain ⟨p, hp, hindent, hcontents⟩ := Document.foldl_addSentence_ofBlocks name blocks
    (extract ctx.terminators
      (pieces.map fun p => ⟨ctx.lines.lineNumber p.1, p.2, none⟩)) {}
  have htext : heldIndent { c with
      document := .ofBlocks name (blocks ++ [.paragraph {}])
      held := pieces.map fun p => ⟨ctx.lines.lineNumber p.1, p.2, none⟩ } =
        (pieces.flatMap (·.2)).takeWhile isBlank := by
    rw [heldIndent, List.flatMap_map]
  rw [visit_container, henter, visitAll_texts, hheld, List.nil_append, leave, if_pos hdepth, htext]
  split
  · rename_i hempty
    have hnone : (pieces.flatMap (·.2)).takeWhile isBlank = [] := List.isEmpty_iff.mp hempty
    exact ⟨p, hp, ⟨rfl, hdepth⟩, by rw [hnone, hindent], by simpa using hcontents⟩
  · refine ⟨{ p with indent := (pieces.flatMap (·.2)).takeWhile isBlank }, ?_, ⟨rfl, hdepth⟩, rfl,
      by simpa using hcontents⟩
    rw [← Document.setIndent_ofBlocks, ← hp]
    rfl

end Compilation

namespace Plain

/-- The offsets and texts of the leaves of a paragraph: its lines, with a space in front of each but
the first. -/
def pieces : List SourceLine → List (ℕ × Text)
  | [] => []
  | l :: ls =>
    (l.offset, l.text) :: ls.flatMap fun l => [(l.joinerOffset, [' ']), (l.offset, l.text)]

/-- The leaves of a paragraph of lines. -/
def leaves (run : List SourceLine) : List Node := (pieces run).map fun p => .text p.1 p.2

def paragraph (run : List SourceLine) : Node := .container .paragraph (leaves run)

theorem addLine_leaves (run : List SourceLine) (l : SourceLine) :
    addLine (leaves run) l = leaves (run ++ [l]) := by
  cases run <;> simp [addLine, leaves, pieces]

theorem closeParagraph_leaves (run : List SourceLine) : closeParagraph (leaves run) =
    ([run].filter (· ≠ [])).map paragraph := by
  cases run <;> simp [closeParagraph, paragraph, leaves, pieces]

theorem paragraphsFrom_leaves (run ls : List SourceLine) : paragraphsFrom (leaves run) ls =
    (((ls.splitOnP fun l => Text.allBlank l.text).modifyHead (run ++ ·)).filter (· ≠ [])).map
      paragraph := by
  induction ls generalizing run with
  | nil => simp [paragraphsFrom, closeParagraph_leaves]
  | cons l ls ih =>
    rw [paragraphsFrom, List.splitOnP_cons_eq_if_modifyHead]
    split
    · have hrest := ih []
      have hid : (fun rest : List SourceLine => [] ++ rest) = id := by
        funext rest
        simp
      rw [hid, List.modifyHead_id] at hrest
      have hempty : leaves [] = [] := rfl
      rw [hempty] at hrest
      rw [hrest, closeParagraph_leaves, List.modifyHead_cons, List.append_nil, ← List.map_append,
        ← List.filter_append]
      rfl
    · have hcompose : (fun rest : List SourceLine => run ++ rest) ∘ List.cons l =
          fun rest => (run ++ [l]) ++ rest := by
        funext rest
        simp
      rw [addLine_leaves, ih, List.modifyHead_modifyHead, hcompose]

/-- The runs among the lines of a source. -/
def runsOf (ls : List SourceLine) : List (List SourceLine) :=
  (ls.splitOnP fun l => Text.allBlank l.text).filter (· ≠ [])

theorem map_text_runsOf (ls : List SourceLine) :
    (runsOf ls).map (List.map (·.text)) = runs (ls.map (·.text)) := by
  rw [runs, splitOnP_map, List.filter_map, runsOf]
  congr 2
  funext run
  simp

theorem map_text_all (source : Text) :
    (SourceLine.all source).map (·.text) = (Text.lines source).map Text.chomp := by
  have hplace : ∀ (ls : List Text) (o : ℕ),
      (SourceLine.place o ls).map (·.text) = ls.map Text.chomp := by
    intro ls
    induction ls with
    | nil => intro o; rfl
    | cons l ls ih => intro o; simp [SourceLine.place, ih]
  exact hplace _ _

theorem read_eq (source : Text) :
    read source = .container .root ((runsOf (SourceLine.all source)).map paragraph) := by
  have hid : (fun rest : List SourceLine => [] ++ rest) = id := by
    funext rest
    simp
  have hall := paragraphsFrom_leaves [] (SourceLine.all source)
  rw [hid, List.modifyHead_id] at hall
  exact congrArg (Node.container .root) hall

end Plain

/-- What a paragraph says about the run of lines that it is made from. -/
structure Says (T : Terminators) (run : List Text) (p : Paragraph) : Prop where
  contents_eq : ∀ n, p.sentences.map (·.content) =
    (extract T [⟨n, Text.joinWith [' '] run, none⟩]).map (·.content)
  indent_eq : p.indent = (Text.joinWith [' '] run).takeWhile isBlank
  opening : ∃ t, p.opening = some t ∧ t <+: Text.joinWith [' '] run

/-- A text with ink opens with its first sentence, behind the blanks in front of it. -/
theorem exists_opening {T : Terminators} (hT : T.Inked) {t : Text} (ht : Text.ink t ≠ []) (n : ℕ) :
    ∃ first rest, (extract T [⟨n, t, none⟩]).map (·.content) = first :: rest ∧
      t.takeWhile isBlank ++ first <+: t := by
  obtain ⟨gaps, hlength, hblank, htext, hends⟩ :=
    (covered_extract_lined T [⟨n, t, none⟩]).exists_gaps hT
  rw [text_flatMap_lined, map_fst_body, List.flatMap_singleton] at htext
  change t = _ at htext
  rw [← map_fst_body]
  cases hbodies : (extract T [⟨n, t, none⟩]).map Sentence.body with
  | nil =>
    -- without sentences the text is one gap
    rw [hbodies, List.length_nil, Nat.zero_add] at hlength
    obtain ⟨g, rfl⟩ := List.length_eq_one_iff.mp hlength
    rw [← map_fst_body, hbodies, List.map_nil, weave] at htext
    exact absurd (Text.ink_eq_nil.mpr fun c hc => hblank g (by simp) c (htext ▸ hc)) ht
  | cons b bs =>
    obtain ⟨g, gs, rfl⟩ : ∃ g gs, gaps = g :: gs :=
      List.exists_cons_of_length_eq_add_one hlength
    obtain ⟨-, x, -, hx, hhead, -⟩ := hends 0 b (by rw [hbodies]; rfl)
    rw [← map_fst_body, hbodies, List.map_cons, weave] at htext
    obtain ⟨c, first, hfirst⟩ : ∃ c first, b.1 = c :: first := by
      cases hb : b.1 with
      | nil => simp [hb] at hhead
      | cons c first => exact ⟨c, first, rfl⟩
    obtain rfl : c = x.1 := by simpa [hfirst] using hhead
    refine ⟨b.1, bs.map Prod.fst, rfl, ?_⟩
    have hgap : t.takeWhile isBlank = g := by
      rw [htext, hfirst, List.append_assoc,
        List.takeWhile_append_of_pos fun c hc => hblank g (by simp) c hc]
      simp [hx]
    rw [hgap, htext]
    exact List.prefix_append _ _

/-- What the paragraph of a run says. -/
theorem says_of_run {T : Terminators} (hT : T.Inked) {run : List Text} (hrun : run ≠ [])
    (hinked : ∀ l ∈ run, Text.allBlank l = false) {p : Paragraph}
    (hcontents : ∀ n, p.sentences.map (·.content) =
      (extract T [⟨n, Text.joinWith [' '] run, none⟩]).map (·.content))
    (hindent : p.indent = (Text.joinWith [' '] run).takeWhile isBlank) : Says T run p := by
  refine ⟨hcontents, hindent, ?_⟩
  obtain ⟨l, ls, rfl⟩ := List.exists_cons_of_ne_nil hrun
  have hl : Text.allBlank l = false := hinked l List.mem_cons_self
  have hink : Text.ink (Text.joinWith [' '] (l :: ls)) ≠ [] := by
    rw [joinWith_space, Text.ink_append]
    intro hnil
    have hblank := Text.ink_eq_nil.mp (List.append_eq_nil_iff.mp hnil).1
    rw [Text.allBlank, List.all_eq_true.mpr hblank] at hl
    contradiction
  obtain ⟨first, rest, hfirst, hprefix⟩ := exists_opening hT hink 0
  rw [← hcontents 0] at hfirst
  obtain ⟨x, xs, hx⟩ : ∃ x xs, p.sentences = x :: xs := by
    cases hsentences : p.sentences with
    | nil => simp [hsentences] at hfirst
    | cons x xs => exact ⟨x, xs, rfl⟩
  refine ⟨p.indent ++ first, ?_, hindent ▸ hprefix⟩
  obtain ⟨rfl, -⟩ : x.content = first ∧ _ := by simpa [hx] using hfirst
  simp [Paragraph.opening, hx]

namespace Compilation

/-- The paragraphs of the runs are added behind the blocks that are there. -/
theorem visitAll_paragraphs (hT : ctx.terminators.Inked) {name : Text} {blocks : List Block}
    {c : Compilation} (hc : c.Idle) (hdocument : c.document = .ofBlocks name blocks)
    (rs : List (List SourceLine))
    (hrs : ∀ run ∈ rs, run ≠ [] ∧ ∀ l ∈ run, Text.allBlank l.text = false) :
    ∃ ps : List Paragraph,
      (visitAll ctx c (rs.map Plain.paragraph)).document =
        .ofBlocks name (blocks ++ ps.map .paragraph) ∧
      (visitAll ctx c (rs.map Plain.paragraph)).Idle ∧
      List.Forall₂ (Says ctx.terminators) (rs.map (List.map (·.text))) ps := by
  induction rs generalizing c blocks with
  | nil => exact ⟨[], by simpa [visitAll] using hdocument, by simpa [visitAll] using hc, .nil⟩
  | cons run rs ih =>
    obtain ⟨p, hp, hidle, hindent, hcontents⟩ := visit_paragraph hc hdocument (Plain.pieces run)
    obtain ⟨ps, hps, hidle', hall⟩ := ih hidle hp fun r hr => hrs r (List.mem_cons_of_mem _ hr)
    refine ⟨p :: ps, ?_, hidle', .cons ?_ hall⟩
    · simpa [visitAll, Plain.paragraph, Plain.leaves] using hps
    · obtain ⟨hne, hinked⟩ := hrs run List.mem_cons_self
      obtain ⟨l, ls, rfl⟩ := List.exists_cons_of_ne_nil hne
      refine says_of_run hT (by simp) (by simpa using hinked) (fun n => ?_) ?_
      · rw [hcontents]
        refine contents_extract_lines hT (fun span hspan => ?_) ?_ n
        · obtain ⟨piece, -, rfl⟩ := List.mem_map.mp hspan
          rfl
        · simp [Plain.pieces, List.flatMap_map, List.map_flatMap]
      · rw [hindent, List.map_cons, joinWith_space]
        simp [Plain.pieces, List.flatMap_map, List.flatMap_assoc]

end Compilation

/-- The runs of lines become the paragraphs of the document. -/
theorem compile_read {T : Terminators} (hT : T.Inked) (name source : Text) :
    ∃ ps : List Paragraph,
      (compile ⟨LineTable.ofText source, T⟩ name (Plain.read source)).1 =
        .ofBlocks name (ps.map .paragraph) ∧
      List.Forall₂ (Says T) (runs ((Text.lines source).map Text.chomp)) ps := by
  have hruns := Plain.map_text_runsOf (SourceLine.all source)
  rw [Plain.map_text_all] at hruns
  have hmem : ∀ run ∈ Plain.runsOf (SourceLine.all source),
      run.map (·.text) ∈ runs ((Text.lines source).map Text.chomp) := by
    intro run hrun
    rw [← hruns]
    exact List.mem_map_of_mem hrun
  have hstart : ({ name := name } : Document) = .ofBlocks name [] := rfl
  have hidle : Compilation.Idle { document := { name := name } } := ⟨rfl, rfl⟩
  obtain ⟨ps, hdocument, hidle, hall⟩ := @Compilation.visitAll_paragraphs
    ⟨LineTable.ofText source, T⟩ hT name [] _ hidle hstart
    (Plain.runsOf (SourceLine.all source)) fun run hrun =>
      ⟨by simpa using ne_nil_of_mem_runs (hmem run hrun),
        fun l hl => allBlank_of_mem_runs (hmem run hrun) (List.mem_map_of_mem hl)⟩
  refine ⟨ps, ?_, hruns ▸ hall⟩
  rw [compile, Plain.read_eq, Compilation.visit]
  dsimp only
  rw [Compilation.flush_of_held_nil hidle.held]
  exact hdocument

/-- The document of a plain text: when all lines are blank there is no section, and otherwise the
preamble holds a paragraph for each run of lines that are not. -/
theorem plain_document {T : Terminators} (hT : T.Inked) (name source : Text) :
    ∃ parsed, Parse.source .plain T name source = .ok parsed ∧
      let ls := (Text.lines source).map Text.chomp
      ((∀ l ∈ ls, Text.allBlank l = true) → parsed.document = { name := name }) ∧
      ((∃ l ∈ ls, Text.allBlank l = false) → ∃ paragraphs : List Paragraph,
        parsed.document =
          { name := name
            sections := [{ level := 0, header := [], blocks := paragraphs.map .paragraph }]
            roots := [0] } ∧
        List.Forall₂ (Says T) (runs ls) paragraphs) := by
  obtain ⟨ps, hcompile, hall⟩ := compile_read hT name source
  refine ⟨_, rfl, fun hblank => ?_, fun hinked => ?_⟩
  · rw [runs_eq_nil_iff.mpr hblank] at hall
    obtain rfl : ps = [] := List.forall₂_nil_left_iff.mp hall
    exact hcompile
  · refine ⟨ps, ?_, hall⟩
    have hne : ps.map Block.paragraph ≠ [] := by
      intro hnil
      obtain rfl : ps = [] := List.map_eq_nil_iff.mp hnil
      obtain ⟨l, hl, hfalse⟩ := hinked
      have hblank := runs_eq_nil_iff.mp (List.forall₂_nil_right_iff.mp hall) l hl
      simp [hfalse] at hblank
    rw [Document.ofBlocks, if_neg hne] at hcompile
    exact hcompile

/-- A sentence that ends at a line break, one that goes on behind it, and a paragraph behind blank
lines. -/
theorem plain_document_of_two_runs : Terminators.fullStop.Inked ∧
    ∃ parsed, Parse.source .plain .fullStop [] "  One.\nT\nwo\r\n\n \nThree".toList = .ok parsed ∧
      ∃ paragraphs : List Paragraph,
        parsed.document =
          { name := []
            sections := [{ level := 0, header := [], blocks := paragraphs.map .paragraph }]
            roots := [0] } ∧
        List.Forall₂ (Says .fullStop) [["  One.".toList, "T".toList, "wo".toList], ["Three".toList]]
          paragraphs := by
  refine ⟨Terminators.inked_fullStop, ?_⟩
  obtain ⟨parsed, hparsed, -, hdocument⟩ :=
    plain_document Terminators.inked_fullStop [] "  One.\nT\nwo\r\n\n \nThree".toList
  exact ⟨parsed, hparsed, hdocument ⟨"T".toList, by decide, rfl⟩⟩

end Markup
end ProseLint
