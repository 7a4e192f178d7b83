import ProseLint.Proofs.Document.Prose

/-!
# Where a sentence is placed

A sentence is placed in the header of a section, in a paragraph, or in a list element of some
level. Headers and lists are numbered in their order in the document; the preamble, which stands in
front of all sections with a header of their own, has no number. Each building operation adds its
sentences at the end, so the places of all others stay what they are.
-/
namespace ProseLint

/-- A place for sentences in a document. -/
inductive Seat where
  | header (number : ℕ)
  | paragraph
  | element (list level : ℕ)
  deriving DecidableEq, Repr

/-- A list without empty elements. -/
def Filled (es : List ListElement) : Prop := ∀ e ∈ es, e.sentences ≠ []

namespace Seat

/-- Sentences at a place, as they were added. -/
def take (seat : Seat) (ss : List Sentence) : List (Seat × Sentence) :=
  ss.map fun x => (seat, x.unflagged)

@[simp] theorem take_nil (seat : Seat) : seat.take [] = [] := rfl

@[simp] theorem take_append (seat : Seat) (ss ts : List Sentence) :
    seat.take (ss ++ ts) = seat.take ss ++ seat.take ts := List.map_append

end Seat

namespace Block

/-- The sentences of a block with their places; `lists` lists stand before it. -/
def located (lists : ℕ) : Block → List (Seat × Sentence)
  | paragraph p => Seat.paragraph.take p.sentences
  | list es => es.flatMap fun e => (Seat.element lists e.level).take e.sentences

def locatedAll (lists : ℕ) : List Block → List (Seat × Sentence)
  | [] => []
  | b :: bs => b.located lists ++ locatedAll (lists + b.elements?.toList.length) bs

theorem locatedAll_append (lists : ℕ) (bs cs : List Block) : locatedAll lists (bs ++ cs) =
    locatedAll lists bs ++ locatedAll (lists + (bs.filterMap elements?).length) cs := by
  induction bs generalizing lists with
  | nil => simp [locatedAll]
  | cons b bs ih =>
    have hlength : lists + ((b :: bs).filterMap elements?).length =
        lists + b.elements?.toList.length + (bs.filterMap elements?).length := by
      cases b <;> simp [elements?, List.filterMap_cons, Nat.add_assoc, Nat.add_comm 1]
    rw [List.cons_append, locatedAll, ih, locatedAll, List.append_assoc, hlength]

end Block

namespace Section

/-- The sentences of a section with their places. -/
def located (number lists : ℕ) (s : Section) : List (Seat × Sentence) :=
  (Seat.header number).take s.header ++ Block.locatedAll lists s.blocks

/-- The same for sections from number `i` on; `front` sections are not counted. -/
def locatedAll (front i lists : ℕ) : List Section → List (Seat × Sentence)
  | [] => []
  | s :: ss =>
    s.located (i - front) lists ++ locatedAll front (i + 1) (lists + s.lists.length) ss

theorem locatedAll_append (front i lists : ℕ) (ss ts : List Section) :
    locatedAll front i lists (ss ++ ts) = locatedAll front i lists ss ++
      locatedAll front (i + ss.length) (lists + (ss.flatMap Section.lists).length) ts := by
  induction ss generalizing i lists with
  | nil => simp [locatedAll]
  | cons s ss ih =>
    have hnumber : i + (s :: ss).length = i + 1 + ss.length := by
      rw [List.length_cons]
      omega
    have hlists : lists + ((s :: ss).flatMap Section.lists).length =
        lists + s.lists.length + (ss.flatMap Section.lists).length := by
      rw [List.flatMap_cons, List.length_append, Nat.add_assoc]
    rw [List.cons_append, locatedAll, ih, locatedAll, List.append_assoc, hnumber, hlists]

/-- What a section says, without its place in the forest. -/
def matter (s : Section) : ℕ × List Sentence × List Block := (s.level, s.header, s.blocks)

theorem locatedAll_congr {ss ts : List Section} (h : ss.map matter = ts.map matter)
    (front i lists : ℕ) : locatedAll front i lists ss = locatedAll front i lists ts := by
  induction ss generalizing ts i lists with
  | nil =>
    obtain rfl : ts = [] := by simpa using h.symm
    rfl
  | cons s ss ih =>
    obtain ⟨t, ts, rfl⟩ : ∃ t ts', ts = t :: ts' := by
      cases ts with
      | nil => simp at h
      | cons t ts => exact ⟨t, ts, rfl⟩
    obtain ⟨hhead, htail⟩ := List.cons.inj h
    have hheader : s.header = t.header := congrArg (·.2.1) hhead
    have hblocks : s.blocks = t.blocks := congrArg (·.2.2) hhead
    have hlists : s.lists = t.lists := by rw [Section.lists, hblocks, Section.lists]
    rw [locatedAll, ih htail, locatedAll, located, hheader, hblocks, hlists]
    rfl

/-- A section that has become longer at its end, by some lists and sentences. `lists` lists stand
before its new end. -/
structure Grows (lists : ℕ) (s s' : Section) (more : ℕ) (new : List (Seat × Sentence)) : Prop where
  level_eq : s'.level = s.level
  header_eq : s'.header = s.header
  lists_length : s'.lists.length = s.lists.length + more
  filled : (∀ es ∈ s.lists, Filled es) → ∀ es ∈ s'.lists, Filled es
  located : ∀ n, n + s.lists.length = lists →
    Block.locatedAll n s'.blocks = Block.locatedAll n s.blocks ++ new

variable {s : Section} {lists : ℕ}

theorem lists_pushBlock (b : Block) (s : Section) :
    (s.pushBlock b).lists = s.lists ++ b.elements?.toList := by
  simp only [Section.lists, Section.pushBlock, List.filterMap_append, List.filterMap_cons,
    List.filterMap_nil]
  cases b <;> rfl

theorem grows_pushBlock {b : Block} (hb : ∀ es ∈ b.elements?, Filled es) (s : Section) :
    s.Grows lists (s.pushBlock b) b.elements?.toList.length (b.located lists) where
  level_eq := rfl
  header_eq := rfl
  lists_length := by rw [lists_pushBlock, List.length_append]
  filled hs es hes := by
    rw [lists_pushBlock, List.mem_append, Option.mem_toList] at hes
    exact hes.elim (hs es) (hb es)
  located n hn := by
    rw [Section.pushBlock, Block.locatedAll_append]
    subst hn
    simp [Block.locatedAll, Section.lists]

/-- The last block is exchanged for one that has more sentences at its end. -/
theorem grows_modifyLastBlock {b b' : Block} {new : List (Seat × Sentence)}
    (hlast : s.blocks.getLast? = some b)
    (hcount : b'.elements?.toList.length = b.elements?.toList.length)
    (hfilled : (∀ es ∈ b.elements?, Filled es) → ∀ es ∈ b'.elements?, Filled es)
    (hnew : ∀ n, n + b.elements?.toList.length = lists → b'.located n = b.located n ++ new) :
    s.Grows lists (s.modifyLastBlock fun _ => b') 0 new := by
  obtain ⟨init, hinit⟩ := List.getLast?_eq_some_iff.mp hlast
  have hblocks := blocks_modifyLastBlock hinit fun _ => b'
  have hold : s.lists = init.filterMap Block.elements? ++ b.elements?.toList := by
    rw [Section.lists, hinit, List.filterMap_append]
    cases b <;> rfl
  have hlists : (s.modifyLastBlock fun _ => b').lists =
      init.filterMap Block.elements? ++ b'.elements?.toList := by
    rw [Section.lists, hblocks, List.filterMap_append]
    cases b' <;> rfl
  constructor
  case level_eq => rfl
  case header_eq => rfl
  case lists_length => rw [hlists, hold, List.length_append, List.length_append, hcount]; rfl
  case filled =>
    intro hs es hes
    rw [hold] at hs
    rw [hlists, List.mem_append, Option.mem_toList] at hes
    exact hes.elim (fun h => hs es (List.mem_append_left _ h))
      (hfilled (fun es hes => hs es (List.mem_append_right _ (Option.mem_toList.mpr hes))) es)
  case located =>
    intro n hn
    rw [hold, List.length_append, ← Nat.add_assoc] at hn
    rw [hblocks, hinit, Block.locatedAll_append, Block.locatedAll_append]
    simp [Block.locatedAll, hnew _ hn]

theorem grows_addSentence (x : Sentence) (s : Section) :
    s.Grows lists (s.addSentence x) 0 [(.paragraph, x.unflagged)] := by
  unfold addSentence
  split
  · rename_i p hp
    refine grows_modifyLastBlock hp rfl (by simp [Block.elements?]) fun n _ => ?_
    simp [Block.located, Seat.take, Sentence.unflagged]
  · exact grows_pushBlock (b := .paragraph _) (by simp [Block.elements?]) s

theorem grows_setIndent (indent : Text) (s : Section) :
    s.Grows lists (s.setIndent indent) 0 [] := by
  unfold setIndent
  split
  · rename_i p hp
    refine grows_modifyLastBlock hp rfl (by simp [Block.elements?]) fun n _ => ?_
    simp [Block.located]
  · exact ⟨rfl, rfl, rfl, id, by simp⟩

theorem grows_addElement {es : List ListElement} (hs : s.blocks.getLast? = some (.list es))
    {e : ListElement} (he : e.sentences ≠ []) :
    s.Grows (lists + 1) (s.addElement e) 0 ((Seat.element lists e.level).take e.sentences) := by
  unfold addElement
  rw [hs]
  dsimp only
  refine grows_modifyLastBlock hs rfl ?_ fun n hn => ?_
  · intro hfilled es' hes'
    obtain rfl : es ++ [e] = es' := by simpa [Block.elements?] using hes'
    intro e' he'
    rcases List.mem_append.mp he' with he' | he'
    · exact hfilled es rfl e' he'
    · rwa [List.mem_singleton.mp he']
  · obtain rfl : n = lists := by simpa [Block.elements?] using hn
    simp [Block.located]

end Section

namespace Document

/-- The lists of a document in their order. -/
def lists (d : Document) : List (List ListElement) := d.sections.flatMap Section.lists

/-- The sentences of a document with their places; `front` sections stand before those with a header
of their own. -/
def located (front : ℕ) (d : Document) : List (Seat × Sentence) :=
  Section.locatedAll front 0 0 d.sections

/-- A document of some sections, with headers of these levels, behind a preamble or none, and of
some lists. All sentences have the places given. -/
structure Arranged (d : Document) (front : ℕ) (levels : List ℕ) (lists : ℕ)
    (located : List (Seat × Sentence)) : Prop where
  front_le : front ≤ 1
  preamble : front = 1 → d.headerOf 0 = []
  levels_eq : d.sections.map (·.level) = List.replicate front 0 ++ levels
  length_lists : d.lists.length = lists
  filled : ∀ es ∈ d.lists, Filled es
  located_eq : d.located front = located

/-- The document ends in a list. -/
def EndsInList (d : Document) : Prop :=
  ∃ s es, d.sections.getLast? = some s ∧ s.blocks.getLast? = some (.list es)

namespace Arranged

variable {d d' : Document} {front : ℕ} {levels : List ℕ} {lists : ℕ}
  {located : List (Seat × Sentence)}

theorem start (name : Text) : Arranged { name := name } 0 [] 0 [] :=
  ⟨by omega, by simp, rfl, rfl, by simp [Document.lists], rfl⟩

theorem congr (h : d.Arranged front levels lists located)
    (hsections : d'.sections.map Section.matter = d.sections.map Section.matter) :
    d'.Arranged front levels lists located := by
  have hlevels : d'.sections.map (·.level) = d.sections.map (·.level) := by
    have hmap := congrArg (List.map Prod.fst) hsections
    rwa [List.map_map, List.map_map] at hmap
  have hheaders : d'.sections.map (·.header) = d.sections.map (·.header) := by
    have hmap := congrArg (List.map fun m => m.2.1) hsections
    rwa [List.map_map, List.map_map] at hmap
  have hlists : d'.lists = d.lists := by
    have hmap := congrArg (List.flatMap fun m => m.2.2.filterMap Block.elements?) hsections
    rwa [List.flatMap_map, List.flatMap_map] at hmap
  refine ⟨h.front_le, fun hfront => ?_, hlevels ▸ h.levels_eq, hlists ▸ h.length_lists,
    hlists ▸ h.filled, ?_⟩
  · have hheader : d'.headerOf 0 = d.headerOf 0 := by
      rw [headerOf_eq, headerOf_eq, ← List.getElem?_map, ← List.getElem?_map, hheaders]
    rw [hheader, h.preamble hfront]
  · rw [Document.located, Section.locatedAll_congr hsections]
    exact h.located_eq

theorem length_sections (h : d.Arranged front levels lists located) :
    d.sections.length = front + levels.length := by
  have hlength := congrArg List.length h.levels_eq
  simpa using hlength

/-- A new section stands behind all others. -/
theorem addSection (h : d.Arranged front levels lists located) (level : ℕ)
    (header : List Sentence) : (d.addSection level header).Arranged front (levels ++ [level]) lists
      (located ++ (Seat.header levels.length).take header) := by
  have hlists : (d.addSection level header).lists = d.lists := by
    simp [Document.lists, Document.addSection, Section.lists]
  have htake : ∀ seat : Seat, seat.take (openHeader header) = seat.take header := by
    intro seat
    rw [Seat.take, openHeader, map_modify_of_forall]
    · rfl
    · exact fun _ => rfl
  have hnumber : 0 + d.sections.length - front = levels.length := by
    rw [h.length_sections]
    omega
  refine ⟨h.front_le, fun hfront => ?_, ?_, hlists ▸ h.length_lists, hlists ▸ h.filled, ?_⟩
  · have hpos : 0 ≠ d.sections.length := by
      rw [h.length_sections]
      omega
    rw [headerOf_eq, getElem?_addSection, if_neg hpos, ← headerOf_eq, h.preamble hfront]
  · rw [Document.addSection, List.map_append, h.levels_eq, List.append_assoc]
    rfl
  · have hnew : (d.addSection level header).sections =
        d.sections ++ [{ level := level, header := openHeader header }] := rfl
    rw [Document.located, hnew, Section.locatedAll_append, Section.locatedAll, Section.located,
      hnumber, htake, ← h.located_eq]
    simp [Document.located, Section.locatedAll, Block.locatedAll]

theorem addRoot (h : d.Arranged front levels lists located) (i : ℕ) :
    (d.addRoot i).Arranged front levels lists located := h.congr rfl

theorem attachChild (h : d.Arranged front levels lists located) (parent child : ℕ) :
    (d.attachChild parent child).Arranged front levels lists located := by
  refine h.congr ?_
  rw [Document.attachChild, map_modify_of_forall, map_modify_of_forall] <;> exact fun _ => rfl

theorem withSection (h : d.Arranged front levels lists located) :
    ∃ front', d.withSection.Arranged front' levels lists located := by
  unfold Document.withSection
  split
  · rename_i hempty
    have hnil : d.sections = [] := List.isEmpty_iff.mp hempty
    have hlength := h.length_sections
    rw [hnil, List.length_nil] at hlength
    obtain rfl : levels = [] := List.eq_nil_of_length_eq_zero (by omega)
    obtain rfl : lists = 0 := by rw [← h.length_lists, Document.lists, hnil]; rfl
    obtain rfl : located = [] := by
      rw [← h.located_eq, Document.located, hnil]
      rfl
    have hsections : ((d.addSection 0 []).addRoot 0).sections = [{ level := 0, header := [] }] := by
      simp [Document.addRoot, Document.addSection, hnil]
    refine ⟨1, le_rfl, fun _ => ?_, ?_, ?_, ?_, ?_⟩
    · simp [headerOf_eq, hsections]
    · simp [hsections]
    · simp [Document.lists, hsections, Section.lists]
    · simp [Document.lists, hsections, Section.lists]
    · simp [Document.located, hsections, Section.locatedAll, Section.located, Block.locatedAll]
  · exact ⟨front, h⟩

/-- What the current section gains, the document gains. -/
theorem modifyCurrent (h : d.Arranged front levels lists located) {f : Section → Section} {more : ℕ}
    {new : List (Seat × Sentence)}
    (hf : ∀ s, d.withSection.sections.getLast? = some s → s.Grows lists (f s) more new) :
    ∃ front', (d.modifyCurrent f).Arranged front' levels (lists + more) (located ++ new) := by
  obtain ⟨front', h'⟩ := h.withSection
  obtain hnil | ⟨init, s, hinit⟩ := List.eq_nil_or_concat' d.withSection.sections
  · exact absurd hnil d.sections_withSection_ne_nil
  have hgrows := hf s (by simp [hinit])
  have hsections : (d.modifyCurrent f).sections = init ++ [f s] := by
    simp [Document.modifyCurrent, hinit]
  have hold : d.withSection.lists = init.flatMap Section.lists ++ s.lists := by
    simp [Document.lists, hinit]
  have hlists : (d.modifyCurrent f).lists = init.flatMap Section.lists ++ (f s).lists := by
    simp [Document.lists, hsections]
  have hcount := h'.length_lists
  rw [hold, List.length_append] at hcount
  refine ⟨front', h'.front_le, fun hfront => ?_, ?_, ?_, ?_, ?_⟩
  · have hheader : (d.modifyCurrent f).headerOf 0 = d.withSection.headerOf 0 := by
      rw [headerOf_eq, headerOf_eq, hsections, hinit]
      cases init <;> simp [hgrows.header_eq]
    rw [hheader, h'.preamble hfront]
  · rw [← h'.levels_eq, hsections, hinit, List.map_append, List.map_append, List.map_singleton,
      List.map_singleton, hgrows.level_eq]
  · rw [hlists, List.length_append, hgrows.lists_length, ← Nat.add_assoc, hcount]
  · have hfilled := h'.filled
    rw [hold] at hfilled
    rw [hlists]
    intro es hes
    rcases List.mem_append.mp hes with hes | hes
    · exact hfilled es (List.mem_append_left _ hes)
    · exact hgrows.filled (fun es hes => hfilled es (List.mem_append_right _ hes)) es hes
  · rw [← h'.located_eq, Document.located, Document.located, hsections, hinit,
      Section.locatedAll_append, Section.locatedAll_append]
    simp only [Section.locatedAll, Section.located, hgrows.header_eq, Nat.zero_add,
      hgrows.located _ hcount, List.append_assoc, List.append_nil]

theorem addParagraph (h : d.Arranged front levels lists located) :
    ∃ front', d.addParagraph.Arranged front' levels lists located := by
  have hpush : ∃ front', d.addParagraph.Arranged front' levels (lists + 0) (located ++ []) :=
    h.modifyCurrent fun s _ => Section.grows_pushBlock (b := .paragraph {})
      (by simp [Block.elements?]) s
  rwa [List.append_nil] at hpush

theorem addList (h : d.Arranged front levels lists located) :
    ∃ front', d.addList.Arranged front' levels (lists + 1) located := by
  have hpush : ∃ front', d.addList.Arranged front' levels (lists + 1) (located ++ []) :=
    h.modifyCurrent fun s _ => Section.grows_pushBlock (b := .list [])
      (by simp [Block.elements?, Filled]) s
  rwa [List.append_nil] at hpush

theorem setIndent (h : d.Arranged front levels lists located) (indent : Text) :
    ∃ front', (d.setIndent indent).Arranged front' levels lists located := by
  have hset : ∃ front', (d.setIndent indent).Arranged front' levels (lists + 0) (located ++ []) :=
    h.modifyCurrent fun s _ => s.grows_setIndent indent
  rwa [List.append_nil] at hset

theorem addSentence (h : d.Arranged front levels lists located) (x : Sentence) :
    ∃ front', (d.addSentence x).Arranged front' levels lists
      (located ++ Seat.paragraph.take [x]) :=
  h.modifyCurrent fun s _ => s.grows_addSentence x

theorem foldl_addSentence (h : d.Arranged front levels lists located) (xs : List Sentence) :
    ∃ front', (xs.foldl (fun d x => d.addSentence x) d).Arranged front' levels lists
      (located ++ Seat.paragraph.take xs) := by
  induction xs generalizing d front located with
  | nil => exact ⟨front, by simpa using h⟩
  | cons x xs ih =>
    obtain ⟨front', hfirst⟩ := h.addSentence x
    obtain ⟨front'', hrest⟩ := ih hfirst
    rw [List.append_assoc, ← Seat.take_append, List.singleton_append] at hrest
    exact ⟨front'', hrest⟩

/-- In a document that ends in a list, sentences can be added to that list. -/
theorem addElement (h : d.Arranged front levels (lists + 1) located) (hlist : d.EndsInList)
    (level : ℕ) {ss : List Sentence} (hss : ss ≠ []) :
    ∃ front', (d.addElement level ss).Arranged front' levels (lists + 1)
      (located ++ (Seat.element lists level).take ss) := by
  obtain ⟨s, es, hs, hes⟩ := hlist
  have hsection : d.withSection = d := by
    rw [withSection_eq, if_neg]
    rintro hnil
    simp [hnil] at hs
  have hgrows : ∀ s', d.withSection.sections.getLast? = some s' → s'.Grows (lists + 1)
      (s'.addElement ⟨level, ss⟩) 0 ((Seat.element lists level).take ss) := by
    intro s' hs'
    rw [hsection, hs, Option.some.injEq] at hs'
    subst hs'
    exact Section.grows_addElement hes hss
  exact h.modifyCurrent hgrows

end Arranged

theorem endsInList_modifyCurrent {d : Document} {f : Section → Section}
    (hf : ∀ s, d.withSection.sections.getLast? = some s →
      ∃ es, (f s).blocks.getLast? = some (.list es)) : (d.modifyCurrent f).EndsInList := by
  obtain hnil | ⟨init, s, hinit⟩ := List.eq_nil_or_concat' d.withSection.sections
  · exact absurd hnil d.sections_withSection_ne_nil
  obtain ⟨es, hes⟩ := hf s (by simp [hinit])
  exact ⟨f s, es, by simp [modifyCurrent, hinit], hes⟩

theorem endsInList_addList (d : Document) : d.addList.EndsInList :=
  endsInList_modifyCurrent fun s _ => ⟨[], by simp [Section.pushBlock]⟩

theorem endsInList_addElement (level : ℕ) (ss : List Sentence) (d : Document) :
    (d.addElement level ss).EndsInList := by
  refine endsInList_modifyCurrent fun s _ => ?_
  unfold Section.addElement
  split
  · rename_i es hes
    obtain ⟨init, hinit⟩ := List.getLast?_eq_some_iff.mp hes
    exact ⟨es ++ [⟨level, ss⟩], by simp [Section.modifyLastBlock, hinit]⟩
  · exact ⟨[⟨level, ss⟩], by simp [Section.pushBlock]⟩

end Document
end ProseLint
