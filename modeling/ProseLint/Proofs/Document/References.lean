import ProseLint.Proofs.Document.Additions

/-!
# Blocks as references

The body of a section may be kept on two shelves, one of paragraphs and one of lists, with
references to them in the order of the blocks. A step then looks at the last reference to see
whether to open a block, and changes what stands last on a shelf. The blocks put on shelves one
after another are referred to, each exactly once and in the order of their creation, and each step
does the same to the shelves as to the section. So what a section becomes by any steps is what they
add to it.
-/
namespace ProseLint

/-- The number of a paragraph or of a list. -/
inductive BlockRef where
  | paragraph (i : ℕ)
  | list (i : ℕ)
  deriving DecidableEq, Repr

namespace BlockRef

def paragraph? : BlockRef → Option ℕ
  | paragraph i => some i
  | list _ => none

def list? : BlockRef → Option ℕ
  | paragraph _ => none
  | list i => some i

end BlockRef

/-- The paragraph with a sentence behind the others, flagged when it is the first. -/
def Paragraph.concat (p : Paragraph) (x : Sentence) : Paragraph :=
  { p with sentences := p.sentences ++ [{ x with isFirst := p.sentences.isEmpty }] }

structure Shelves where
  paragraphs : List Paragraph := []
  lists : List (List ListElement) := []
  refs : List BlockRef := []
  deriving DecidableEq, Repr

namespace Shelves

/-- The block that is referred to. -/
def block? (t : Shelves) : BlockRef → Option Block
  | .paragraph i => t.paragraphs[i]?.map Block.paragraph
  | .list i => t.lists[i]?.map Block.list

/-- Put a block behind those of its kind, with a reference behind all others. -/
def put (t : Shelves) : Block → Shelves
  | .paragraph p =>
    { t with
      paragraphs := t.paragraphs ++ [p]
      refs := t.refs ++ [.paragraph t.paragraphs.length] }
  | .list es => { t with lists := t.lists ++ [es], refs := t.refs ++ [.list t.lists.length] }

/-- Change what stands last on the shelf of paragraphs. -/
def modifyParagraph (f : Paragraph → Paragraph) (t : Shelves) : Shelves :=
  { t with paragraphs := t.paragraphs.modify (t.paragraphs.length - 1) f }

/-- Change what stands last on the shelf of lists. -/
def modifyList (f : List ListElement → List ListElement) (t : Shelves) : Shelves :=
  { t with lists := t.lists.modify (t.lists.length - 1) f }

def openParagraph (t : Shelves) : Shelves :=
  match t.refs.getLast? with
  | some (.paragraph _) => t
  | _ => t.put (.paragraph {})

def openList (t : Shelves) : Shelves :=
  match t.refs.getLast? with
  | some (.list _) => t
  | _ => t.put (.list [])

def addSentence (x : Sentence) (t : Shelves) : Shelves :=
  t.openParagraph.modifyParagraph fun p => p.concat x

def setIndent (indent : Text) (t : Shelves) : Shelves :=
  match t.refs.getLast? with
  | some (.paragraph _) => t.modifyParagraph fun p => { p with indent := indent }
  | _ => t

def addElement (e : ListElement) (t : Shelves) : Shelves := t.openList.modifyList (· ++ [e])

/-- What a step does to the shelves of the latest section. -/
def edit (t : Shelves) : Document.BuildStep → Shelves
  | .addSection _ _ | .addRoot _ | .attachChild _ _ => t
  | .addParagraph => t.put (.paragraph {})
  | .addSentence x => t.addSentence x
  | .setIndent indent => t.setIndent indent
  | .addList => t.put (.list [])
  | .addElement level sentences => t.addElement ⟨level, sentences⟩

/-- The shelves with blocks put on them in their order. -/
def ofBlocks (bs : List Block) : Shelves := bs.foldl put {}

@[simp] theorem ofBlocks_concat (bs : List Block) (b : Block) :
    ofBlocks (bs ++ [b]) = (ofBlocks bs).put b := by
  simp [ofBlocks]

@[simp] theorem paragraphs_ofBlocks (bs : List Block) :
    (ofBlocks bs).paragraphs = bs.filterMap Block.paragraph? := by
  induction bs using List.reverseRecOn with
  | nil => rfl
  | append_singleton bs b ih => cases b <;> simp [put, ih, Block.paragraph?]

@[simp] theorem lists_ofBlocks (bs : List Block) :
    (ofBlocks bs).lists = bs.filterMap Block.elements? := by
  induction bs using List.reverseRecOn with
  | nil => rfl
  | append_singleton bs b ih => cases b <;> simp [put, ih, Block.elements?]

/-- The references to paragraphs are their numbers in order. -/
theorem paragraph?_refs_ofBlocks (bs : List Block) :
    (ofBlocks bs).refs.filterMap BlockRef.paragraph? =
      List.range (ofBlocks bs).paragraphs.length := by
  induction bs using List.reverseRecOn with
  | nil => rfl
  | append_singleton bs b ih =>
    rw [ofBlocks_concat]
    cases b with
    | paragraph p =>
      simp only [put, List.filterMap_append, ih, List.length_append, List.length_singleton,
        List.range_succ]
      rfl
    | list es =>
      simp only [put, List.filterMap_append, ih]
      exact List.append_nil _

theorem list?_refs_ofBlocks (bs : List Block) :
    (ofBlocks bs).refs.filterMap BlockRef.list? = List.range (ofBlocks bs).lists.length := by
  induction bs using List.reverseRecOn with
  | nil => rfl
  | append_singleton bs b ih =>
    rw [ofBlocks_concat]
    cases b with
    | paragraph p =>
      simp only [put, List.filterMap_append, ih]
      exact List.append_nil _
    | list es =>
      simp only [put, List.filterMap_append, ih, List.length_append, List.length_singleton,
        List.range_succ]
      rfl

/-- A block that is put on a shelf changes no reference. -/
theorem block?_put {t : Shelves} {r : BlockRef} {b : Block} (h : t.block? r = some b) (c : Block) :
    (t.put c).block? r = some b := by
  have hput {α : Type} {xs : List α} {i : ℕ} {f : α → Block} (new : List α)
      (h : xs[i]?.map f = some b) : (xs ++ new)[i]?.map f = some b := by
    obtain ⟨a, ha, rfl⟩ := Option.map_eq_some_iff.mp h
    rw [List.getElem?_append_left (List.getElem?_eq_some_iff.mp ha).1, ha]
    rfl
  cases r <;> cases c
  case paragraph.paragraph p => exact hput [p] h
  case list.list es => exact hput [es] h
  all_goals exact h

/-- The references are to the blocks in their order. -/
theorem map_block?_refs_ofBlocks (bs : List Block) :
    (ofBlocks bs).refs.map (ofBlocks bs).block? = bs.map some := by
  induction bs using List.reverseRecOn with
  | nil => rfl
  | append_singleton bs b ih =>
    have hold : (ofBlocks bs).refs.map ((ofBlocks bs).put b).block? = bs.map some := by
      rw [← ih]
      refine List.map_congr_left fun r hr => ?_
      have hr' : (ofBlocks bs).block? r ∈ bs.map some := ih ▸ List.mem_map_of_mem hr
      obtain ⟨c, -, hc⟩ := List.mem_map.mp hr'
      rw [← hc, block?_put hc.symm]
    rw [ofBlocks_concat, List.map_append, ← hold]
    cases b <;> simp [put, block?]

section

variable (t : Shelves) (p : Paragraph) (es : List ListElement)

theorem addSentence_put_paragraph (x : Sentence) :
    (t.put (.paragraph p)).addSentence x = t.put (.paragraph (p.concat x)) := by
  simp [addSentence, openParagraph, modifyParagraph, put]

theorem addSentence_put_list (x : Sentence) : (t.put (.list es)).addSentence x =
    (t.put (.list es)).put (.paragraph (Paragraph.concat {} x)) := by
  simp [addSentence, openParagraph, modifyParagraph, put]

theorem setIndent_put_paragraph (indent : Text) : (t.put (.paragraph p)).setIndent indent =
    t.put (.paragraph { p with indent := indent }) := by
  simp [setIndent, modifyParagraph, put]

theorem setIndent_put_list (indent : Text) :
    (t.put (.list es)).setIndent indent = t.put (.list es) := by
  simp [setIndent, put]

theorem addElement_put_paragraph (e : ListElement) :
    (t.put (.paragraph p)).addElement e = (t.put (.paragraph p)).put (.list [e]) := by
  simp [addElement, openList, modifyList, put]

theorem addElement_put_list (e : ListElement) :
    (t.put (.list es)).addElement e = t.put (.list (es ++ [e])) := by
  simp [addElement, openList, modifyList, put]

end

section

variable (s : Section)

theorem ofBlocks_addSentence (x : Sentence) :
    ofBlocks (s.addSentence x).blocks = (ofBlocks s.blocks).addSentence x := by
  -- Whether a paragraph is opened is decided by the last block, so by what was put last.
  obtain hnil | ⟨init, b, hinit⟩ := List.eq_nil_or_concat' s.blocks
  · rw [Section.addSentence, hnil]
    simp only [List.getLast?_nil, Section.pushBlock, hnil, List.nil_append]
    rfl
  cases b with
  | paragraph p =>
    have hblocks : (s.addSentence x).blocks = init ++ [.paragraph (p.concat x)] := by
      simp [Section.addSentence, Section.modifyLastBlock, Paragraph.concat, hinit]
    rw [hblocks, hinit, ofBlocks_concat, ofBlocks_concat, addSentence_put_paragraph]
  | list es =>
    have hblocks : (s.addSentence x).blocks =
        s.blocks ++ [.paragraph (Paragraph.concat {} x)] := by
      simp [Section.addSentence, Section.pushBlock, Paragraph.concat, hinit]
    rw [hblocks, ofBlocks_concat, hinit, ofBlocks_concat, addSentence_put_list]

theorem ofBlocks_setIndent (indent : Text) :
    ofBlocks (s.setIndent indent).blocks = (ofBlocks s.blocks).setIndent indent := by
  obtain hnil | ⟨init, b, hinit⟩ := List.eq_nil_or_concat' s.blocks
  · rw [Section.setIndent, hnil]
    simp only [List.getLast?_nil, hnil]
    rfl
  cases b with
  | paragraph p =>
    have hblocks : (s.setIndent indent).blocks =
        init ++ [.paragraph { p with indent := indent }] := by
      simp [Section.setIndent, Section.modifyLastBlock, hinit]
    rw [hblocks, hinit, ofBlocks_concat, ofBlocks_concat, setIndent_put_paragraph]
  | list es =>
    have hsame : s.setIndent indent = s := by simp [Section.setIndent, hinit]
    rw [hsame, hinit, ofBlocks_concat, setIndent_put_list]

theorem ofBlocks_addElement (e : ListElement) :
    ofBlocks (s.addElement e).blocks = (ofBlocks s.blocks).addElement e := by
  obtain hnil | ⟨init, b, hinit⟩ := List.eq_nil_or_concat' s.blocks
  · rw [Section.addElement, hnil]
    simp only [List.getLast?_nil, Section.pushBlock, hnil, List.nil_append]
    rfl
  cases b with
  | paragraph p =>
    have hblocks : (s.addElement e).blocks = s.blocks ++ [.list [e]] := by
      simp [Section.addElement, Section.pushBlock, hinit]
    rw [hblocks, ofBlocks_concat, hinit, ofBlocks_concat, addElement_put_paragraph]
  | list es =>
    have hblocks : (s.addElement e).blocks = init ++ [.list (es ++ [e])] := by
      simp [Section.addElement, Section.modifyLastBlock, hinit]
    rw [hblocks, hinit, ofBlocks_concat, ofBlocks_concat, addElement_put_list]

theorem ofBlocks_edit (step : Document.BuildStep) :
    ofBlocks (step.edit s).blocks = (ofBlocks s.blocks).edit step := by
  cases step with
  | addSection | addRoot | attachChild => rfl
  | addParagraph | addList => exact ofBlocks_concat _ _
  | addSentence x => exact ofBlocks_addSentence s x
  | setIndent indent => exact ofBlocks_setIndent s indent
  | addElement => exact ofBlocks_addElement s _

end

theorem ofBlocks_edits (steps : List Document.BuildStep) (s : Section) :
    ofBlocks (Document.edits steps s).blocks = steps.foldl edit (ofBlocks s.blocks) := by
  induction steps generalizing s with
  | nil => rfl
  | cons step steps ih =>
    rw [List.foldl_cons, ← ofBlocks_edit]
    exact ih (step.edit s)

end Shelves

namespace Document

variable {d : Document} {init : List Section} {s : Section}

theorem modifyCurrent_concat (hd : d.sections = init ++ [s]) (f : Section → Section) :
    d.modifyCurrent f = { d with sections := init ++ [f s] } := by
  have hsection : d.withSection = d := by simp [withSection_eq, hd]
  simp [modifyCurrent, hsection, hd]

theorem setIndent_concat (hd : d.sections = init ++ [s]) {bs : List Block} {p : Paragraph}
    (hs : s.blocks = bs ++ [.paragraph p]) (indent : Text) : d.setIndent indent =
      { d with sections :=
          init ++ [{ s with blocks := bs ++ [.paragraph { p with indent := indent }] }] } := by
  rw [setIndent, modifyCurrent_concat hd]
  simp [Section.setIndent, Section.modifyLastBlock, hs]

theorem setIndent_of_not_paragraph (hd : d.sections = init ++ [s])
    (hs : ∀ p, s.blocks.getLast? ≠ some (.paragraph p)) (indent : Text) :
    d.setIndent indent = d := by
  have hsame : s.setIndent indent = s := by
    unfold Section.setIndent
    split
    · rename_i p hp
      exact absurd hp (hs p)
    · rfl
  rw [setIndent, modifyCurrent_concat hd, hsame, ← hd]

/-- What a section is by the steps that were taken while it was the latest. -/
structure MadeBy (steps : List BuildStep) (s : Section) : Prop where
  /-- Behind the header stand the sentences added, and only flags of them differ. -/
  sentences : ∃ body, s.sentences = s.header ++ body ∧ body.map Sentence.unflagged =
    steps.flatMap fun step => step.sentences.map Sentence.unflagged
  /-- The paragraphs consist of the sentences added as such, the lists of the elements. -/
  pieces : s.pieces = steps.filterMap BuildStep.piece?
  flags : ∀ p ∈ s.paragraphs, FlagsFirst p.sentences
  /-- The shelves that the steps fill hold the paragraphs and the lists. -/
  paragraphs : (steps.foldl Shelves.edit {}).paragraphs = s.paragraphs
  lists : (steps.foldl Shelves.edit {}).lists = s.lists
  /-- The references are to the blocks, and to each paragraph and each list once and in order. -/
  refs : (steps.foldl Shelves.edit {}).refs.map (steps.foldl Shelves.edit {}).block? =
    s.blocks.map some
  paragraphRefs : (steps.foldl Shelves.edit {}).refs.filterMap BlockRef.paragraph? =
    List.range s.paragraphs.length
  listRefs : (steps.foldl Shelves.edit {}).refs.filterMap BlockRef.list? =
    List.range s.lists.length

theorem madeBy_edits {steps : List BuildStep} (hs : edits steps s.frame = s) : MadeBy steps s := by
  have hpieces : s.pieces = steps.filterMap BuildStep.piece? := by
    rw [← hs, pieces_edits]
    rfl
  have hshelves : steps.foldl Shelves.edit {} = Shelves.ofBlocks s.blocks := by
    rw [← hs, Shelves.ofBlocks_edits]
    rfl
  have hflags : s.FlagsOpenings := hs ▸ flagsOpenings_edits steps s.frame (List.forall_mem_nil _)
  constructor
  case sentences =>
    refine ⟨s.bodySentences, rfl, ?_⟩
    rw [← s.sentences_pieces, hpieces, List.filterMap_eq_flatMap_toList, List.flatMap_assoc]
    exact List.flatMap_congr fun step _ => step.sentences_piece?
  case pieces => exact hpieces
  case flags => exact fun p hp => hflags.of_mem_paragraphs hp
  all_goals rw [hshelves]
  case paragraphs => exact Shelves.paragraphs_ofBlocks s.blocks
  case lists => exact Shelves.lists_ofBlocks s.blocks
  case refs => exact Shelves.map_block?_refs_ofBlocks s.blocks
  case paragraphRefs =>
    rw [Shelves.paragraph?_refs_ofBlocks, Shelves.paragraphs_ofBlocks, Section.paragraphs]
  case listRefs => rw [Shelves.list?_refs_ofBlocks, Shelves.lists_ofBlocks, Section.lists]

/-- Whatever steps build a document, its sections have the headers given, with the first sentence
flagged, and none in a preamble. Each section is made by the steps taken while it was the latest: it
has the sentences and elements that these add in their order, with the first sentence of a paragraph
flagged as such, and its blocks are referred to each once in the order of their creation. Once there
is a section, an indent changes the paragraph that ends the latest one, and else nothing. -/
theorem build_adds_in_order (name : Text) (steps : List BuildStep) :
    (build name steps).sections.map Section.header = headersFrom { name := name } steps ∧
    (∀ i s, (build name steps).sections[i]? = some s →
      MadeBy (stepsAt i { name := name } steps) s) ∧
    ∀ (d : Document) (init : List Section) (s : Section) (indent : Text),
      d.sections = init ++ [s] →
      (∀ bs p, s.blocks = bs ++ [.paragraph p] → d.setIndent indent = { d with sections :=
        init ++ [{ s with blocks := bs ++ [.paragraph { p with indent := indent }] }] }) ∧
      ((∀ p, s.blocks.getLast? ≠ some (.paragraph p)) → d.setIndent indent = d) := by
  refine ⟨?_, fun i s hs => madeBy_edits (edits_stepsAt hs), fun d init s indent hd => ⟨?_, ?_⟩⟩
  · rw [build, headers_foldl]
    rfl
  · exact fun bs p hs => setIndent_concat hd hs indent
  · exact fun hs => setIndent_of_not_paragraph hd hs indent

/-- Text around a list before any section, and a section that ends in a list. -/
theorem build_adds_in_order_of_preamble :
    let steps : List BuildStep := [.addSentence ⟨['a'], 1, false, []⟩,
      .addElement 1 [⟨['b'], 2, true, []⟩], .addSentence ⟨['c'], 3, true, []⟩,
      .addSentence ⟨['d'], 3, true, []⟩, .addSection 1 [⟨['e'], 4, false, []⟩], .addList]
    let bs : List Block :=
      [.paragraph ⟨[], [⟨['a'], 1, true, []⟩]⟩, .list [⟨1, [⟨['b'], 2, true, []⟩]⟩]]
    let p : Paragraph := ⟨[], [⟨['c'], 3, true, []⟩, ⟨['d'], 3, false, []⟩]⟩
    let s : Section := { level := 0, header := [], blocks := bs ++ [.paragraph p] }
    let s' : Section := { level := 1, header := [⟨['e'], 4, true, []⟩], blocks := [.list []] }
    let d := build [] (steps.take 4)
    let d' := build [] steps
    (d'.sections[0]? = some s ∧ stepsAt 0 { name := [] } steps = steps.take 4 ∧
      MadeBy (stepsAt 0 { name := [] } steps) s) ∧
    (d.sections = [] ++ [s] ∧ s.blocks = bs ++ [.paragraph p] ∧ d.setIndent [' '] = { d with
      sections := [] ++ [{ s with blocks := bs ++ [.paragraph { p with indent := [' '] }] }] }) ∧
    d'.sections = [s] ++ [s'] ∧ (∀ p, s'.blocks.getLast? ≠ some (.paragraph p)) ∧
      d'.setIndent [' '] = d' := by
  intro steps bs p s s' d d'
  have hs : d'.sections[0]? = some s := by decide
  have hd : d.sections = [] ++ [s] := by decide
  have hd' : d'.sections = [s] ++ [s'] := by decide
  have hlist : ∀ p, s'.blocks.getLast? ≠ some (.paragraph p) := by simp [s']
  obtain ⟨-, hmade, hindent⟩ := build_adds_in_order [] steps
  exact ⟨⟨hs, rfl, hmade 0 s hs⟩, ⟨hd, rfl, (hindent d [] s [' '] hd).1 bs p rfl⟩, hd', hlist,
    (hindent d' [s] s' [' '] hd').2 hlist⟩

end Document
end ProseLint
