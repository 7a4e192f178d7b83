import ProseLint.Proofs.Markup.Laying
import ProseLint.Proofs.Markup.WikiInline

/-!
# Leaves laid in a wiki text

Inline markup leaves out its marks, the urls of labelled links and nothing else. A paragraph and
lists are never open together and are closed before any other block is added. So the leaves of the
blocks, and behind them those of what is open, are laid in the lines that have been read.
-/
namespace ProseLint.Markup.Wiki

open Node

theorem lays_textLeaf (offset : ℕ) {t : Text} (h : '\n' ∉ t) :
    Lays offset t (shownOfAll (textLeaf offset t)) := by
  unfold textLeaf
  split
  · exact .nil _ _
  · rename_i hempty
    simpa using lays_text offset (by simpa using hempty) h

/-- The leaves of a piece are laid in its body, and the text goes on where the piece ends. -/
theorem lays_piece {start : ℕ} {mark : Char} {body tail rest : Text} {ls ms : List Leaf}
    (hmark : mark.utf8Size = 1) (hls : Lays (start + 1) body ls)
    (hms : Lays (start + (Text.byteLength (mark :: (body ++ tail ++ rest)) -
      Text.byteLength rest)) rest ms) : Lays start (mark :: (body ++ tail ++ rest)) (ls ++ ms) := by
  have hpiece : Lays start ([mark] ++ (body ++ tail)) ls := by
    apply Lays.skip
    rw [Text.byteLength_cons, Text.byteLength_nil, hmark]
    exact hls.extend tail
  have hlength : Text.byteLength (mark :: (body ++ tail ++ rest)) - Text.byteLength rest =
      Text.byteLength ([mark] ++ (body ++ tail)) := by
    simp only [List.singleton_append, Text.byteLength_cons, Text.byteLength_append]
    omega
  rw [hlength] at hms
  simpa using hpiece.append hms

/-- The leaves of a text are laid in it, from the plain characters that have been passed on. -/
theorem lays_inlineFrom (offset : ℕ) {plain t : Text} (hplain : '\n' ∉ plain) (ht : '\n' ∉ t) :
    Lays offset (plain.reverse ++ t) (shownOfAll (inlineFrom offset plain t)) := by
  have hpassed : ∀ (offset : ℕ) {plain : Text}, '\n' ∉ plain →
      Lays offset plain.reverse (shownOfAll (textLeaf offset plain.reverse)) :=
    fun offset _ hplain => lays_textLeaf offset (by simpa using hplain)
  induction t using reading_induction generalizing offset plain with
  | @piece t rest p h ihbody ihrest =>
    have hne := body_ne_nil_of_piece? h
    obtain ⟨mark, tail, rfl, hmark⟩ := exists_of_piece? h
    simp only [List.mem_cons, List.mem_append, not_or] at ht
    obtain ⟨-, ⟨hbody, -⟩, hrest⟩ := ht
    rw [inlineFrom_of_some offset plain h, shownOfAll_append, shownOfAll_cons]
    refine (hpassed offset hplain).append ?_
    rw [Text.byteLength_reverse]
    refine lays_piece hmark ?_ (ihrest _ List.not_mem_nil hrest)
    cases p with
    | link label url =>
      rw [Piece.toNode, shown_container, shownOfAll_cons, shownOfAll_nil, List.append_nil,
        shown_text]
      exact lays_text _ hne hbody
    | address url =>
      rw [Piece.toNode, shown_leaf]
      exact Lays.single (l := .autolink _ url) (.inr rfl) hne hbody
    | emphasis inner =>
      rw [Piece.toNode, shown_container]
      exact ihbody _ List.not_mem_nil hbody
  | @pass c t h ih =>
    simp only [List.mem_cons, not_or] at ht
    have hplain' : '\n' ∉ c :: plain := by simp [ht.1, hplain]
    rw [inlineFrom_of_none offset plain h]
    simpa using ih offset hplain' ht.2
  | nil => simpa using hpassed offset hplain

theorem lays_inline (offset : ℕ) {t : Text} (h : '\n' ∉ t) :
    Lays offset t (shownOfAll (inline offset t)) :=
  lays_inlineFrom offset List.not_mem_nil h

/-- A text that is not empty leaves something to show. -/
theorem shown_inlineFrom_ne_nil (offset : ℕ) {plain t : Text} (h : plain ++ t ≠ []) :
    shownOfAll (inlineFrom offset plain t) ≠ [] := by
  induction t using reading_induction generalizing offset plain with
  | @piece t rest p hpiece ihbody ihrest =>
    have hne := body_ne_nil_of_piece? hpiece
    rw [inlineFrom_of_some offset plain hpiece]
    cases p with
    | link label url => simp [Piece.toNode]
    | address url => simp [Piece.toNode, Leaf.isOmitted]
    | emphasis inner =>
      have hinner : shownOfAll (inline (offset + Text.byteLength plain + 1) inner) ≠ [] :=
        ihbody _ hne
      simp [Piece.toNode, hinner]
  | pass hnone ih =>
    rw [inlineFrom_of_none offset plain hnone]
    exact ih offset (by simp)
  | nil =>
    have hplain : plain ≠ [] := by simpa using h
    simp [textLeaf, hplain]

/-- The leaves of the items of an open list. -/
def OpenList.shown (l : OpenList) : List Leaf := l.items.flatMap shownOfAll

namespace OpenList

@[simp] theorem shown_toNode (l : OpenList) : l.toNode.shown = l.shown := by
  rw [toNode, shown_container, shown]
  induction l.items with
  | nil => rfl
  | cons item items ih => simp [ih]

@[simp] theorem shown_addItem (content : List Node) (l : OpenList) :
    (l.addItem content).shown = l.shown ++ shownOfAll content := by
  simp [shown, addItem]

/-- A list that hangs off the last item of another ends it. -/
@[simp] theorem shown_hang (n : Node) (l : OpenList) : (l.hang n).shown = l.shown ++ n.shown := by
  unfold hang
  split
  · rename_i item hitem
    obtain ⟨items, hitems⟩ := List.getLast?_eq_some_iff.mp hitem
    simp [shown, hitems]
  · rename_i hnone
    simp [shown, List.getLast?_eq_none_iff.mp hnone]

end OpenList

namespace State

variable {s : State}

/-- The leaves of the blocks, then of what is open. -/
def shown (s : State) : List Leaf :=
  shownOfAll s.blocks ++ shownOfAll (s.paragraph.getD []) ++ s.lists.reverse.flatMap OpenList.shown

/-- A paragraph and lists are never open together. -/
def Parted (s : State) : Prop := s.paragraph = none ∨ s.lists = []

/-- Nothing is open. -/
structure Closed (s : State) : Prop where
  paragraph_eq : s.paragraph = none
  lists_eq : s.lists = []

theorem Closed.parted (h : s.Closed) : s.Parted := .inl h.paragraph_eq

theorem Closed.pushBlock (h : s.Closed) (n : Node) : (s.pushBlock n).Closed :=
  ⟨h.paragraph_eq, h.lists_eq⟩

theorem shown_pushBlock (h : s.Closed) (n : Node) : (s.pushBlock n).shown = s.shown ++ n.shown := by
  simp [shown, State.pushBlock, h.paragraph_eq, h.lists_eq]

theorem shown_leaveOut (h : s.Closed) (kind : OmittedKind) : (s.leaveOut kind).shown = s.shown := by
  simp [leaveOut, shown_pushBlock h, Leaf.isOmitted]

@[simp] theorem paragraph_closeParagraph (s : State) : s.closeParagraph.paragraph = none := by
  unfold closeParagraph
  split
  · rfl
  · assumption

theorem shown_closeParagraph (h : s.Parted) : s.closeParagraph.shown = s.shown := by
  unfold closeParagraph
  split
  · rename_i children hparagraph
    have hlists : s.lists = [] := h.resolve_left (by simp [hparagraph])
    simp [shown, pushBlock, hparagraph, hlists]
  · rfl

@[simp] theorem paragraph_closeInnermostList (s : State) :
    s.closeInnermostList.paragraph = s.paragraph := by
  unfold closeInnermostList
  split <;> rfl

theorem length_closeInnermostList (s : State) :
    s.closeInnermostList.lists.length = s.lists.length - 1 := by
  unfold closeInnermostList
  split <;> rename_i h <;> simp [h]

theorem shown_closeInnermostList (h : s.Parted) : s.closeInnermostList.shown = s.shown := by
  unfold closeInnermostList
  split
  · rfl
  · rename_i l hlists
    have hparagraph : s.paragraph = none := h.resolve_right (by simp [hlists])
    simp [shown, pushBlock, hparagraph, hlists]
  · rename_i hlists
    simp [shown, hlists]

theorem parted_closeInnermostList (h : s.Parted) : s.closeInnermostList.Parted := by
  rcases h with h | h
  · exact .inl (by simp [h])
  · exact .inr (List.length_eq_zero_iff.mp (by simp [length_closeInnermostList, h]))

/-- Closing lists changes nothing but how many are open. -/
theorem repeat_closeInnermostList (h : s.Parted) (n : ℕ) :
    (Nat.repeat closeInnermostList n s).shown = s.shown ∧
      (Nat.repeat closeInnermostList n s).paragraph = s.paragraph ∧
      (Nat.repeat closeInnermostList n s).lists.length = s.lists.length - n ∧
      (Nat.repeat closeInnermostList n s).Parted := by
  induction n with
  | zero => exact ⟨rfl, rfl, rfl, h⟩
  | succ n ih =>
    obtain ⟨hshown, hparagraph, hlength, hparted⟩ := ih
    rw [Nat.repeat]
    refine ⟨?_, ?_, ?_, parted_closeInnermostList hparted⟩
    · rw [shown_closeInnermostList hparted, hshown]
    · rw [paragraph_closeInnermostList, hparagraph]
    · rw [length_closeInnermostList, hlength]
      omega

theorem shown_closeListsTo (h : s.Parted) (depth : ℕ) : (s.closeListsTo depth).shown = s.shown :=
  (repeat_closeInnermostList h _).1

theorem paragraph_closeListsTo (h : s.Parted) (depth : ℕ) :
    (s.closeListsTo depth).paragraph = s.paragraph :=
  (repeat_closeInnermostList h _).2.1

theorem length_closeListsTo (h : s.Parted) (depth : ℕ) :
    (s.closeListsTo depth).lists.length = s.lists.length - (s.lists.length - depth) :=
  (repeat_closeInnermostList h _).2.2.1

theorem lists_closeListsTo_zero (h : s.Parted) : (s.closeListsTo 0).lists = [] := by
  rw [← List.length_eq_zero_iff, length_closeListsTo h]
  omega

theorem closed_closeBlocks (s : State) : s.closeBlocks.Closed := by
  have h : s.closeParagraph.Parted := .inl (paragraph_closeParagraph s)
  exact ⟨(paragraph_closeListsTo h 0).trans (paragraph_closeParagraph s),
    lists_closeListsTo_zero h⟩

theorem shown_closeBlocks (h : s.Parted) : s.closeBlocks.shown = s.shown := by
  have h' : s.closeParagraph.Parted := .inl (paragraph_closeParagraph s)
  exact (shown_closeListsTo h' 0).trans (shown_closeParagraph h)

/-- An item goes behind everything that has been read. -/
theorem shown_addItem (h : s.paragraph = none) {depth : ℕ} (hdepth : 0 < depth) (ordered : Bool)
    (content : List Node) : (s.addItem depth ordered content).paragraph = none ∧
      (s.addItem depth ordered content).shown = s.shown ++ shownOfAll content := by
  have hparagraph := (paragraph_closeListsTo (.inl h) depth).trans h
  have hshown := shown_closeListsTo (.inl h) depth
  have hlength := length_closeListsTo (.inl h) depth
  unfold addItem
  dsimp only
  split
  · rename_i hnil
    have hzero := congrArg List.length hnil
    simp only [List.length_append, List.length_replicate, List.length_nil] at hzero
    omega
  · rename_i l rest hlists
    refine ⟨hparagraph, ?_⟩
    have hopened : (l :: rest).reverse.flatMap OpenList.shown =
        (s.closeListsTo depth).lists.reverse.flatMap OpenList.shown := by
      rw [← hlists]
      simp [OpenList.shown]
    rw [← hshown, shown, shown, ← hopened, hparagraph]
    simp

end State

theorem suffix_of_header? {line body : Text} {level : ℕ} (h : header? line = some (level, body)) :
    body <:+ line := by
  unfold header? at h
  split at h
  · split at h
    · simp only [Option.some.injEq, Prod.mk.injEq] at h
      obtain ⟨-, rfl⟩ := h
      exact (List.dropWhile_suffix _).trans (List.suffix_append ['h', _, '.'] _)
    · simp at h
  · simp at h

theorem of_listItem? {line marks body : Text} (h : listItem? line = some (marks, body)) :
    0 < marks.length ∧ body <:+ line := by
  unfold listItem? at h
  dsimp only at h
  split at h
  · simp at h
  · rename_i c rest hrest
    split at h
    · rename_i hmarks
      simp only [Option.some.injEq, Prod.mk.injEq] at h
      obtain ⟨rfl, rfl⟩ := h
      simp only [Bool.and_eq_true, Bool.not_eq_true', List.isEmpty_eq_false_iff] at hmarks
      refine ⟨List.length_pos_iff.mpr hmarks.1, ?_⟩
      have hstart : c :: rest <:+ line := by
        rw [← hrest]
        exact (List.dropWhile_suffix _).trans (List.dropWhile_suffix _)
      exact (List.dropWhile_suffix _).trans ((List.suffix_cons c rest).trans hstart)
    · simp at h

/-- The leaves of the end of a line are laid in the line. -/
theorem lays_inlineEnd {l : SourceLine} {body : Text} (hl : '\n' ∉ l.text) (hb : body <:+ l.text) :
    Lays l.offset l.text (shownOfAll (inlineEnd l body)) := by
  obtain ⟨front, hfront⟩ := hb
  have hbody : '\n' ∉ body := fun h => hl (hfront ▸ List.mem_append_right _ h)
  have hlength : Text.byteLength l.text - Text.byteLength body = Text.byteLength front := by
    rw [← hfront, Text.byteLength_append]
    omega
  rw [inlineEnd, hlength, ← hfront]
  exact (lays_inline _ hbody).skip front

namespace State

/-- The new leaves of a state are laid in a text. -/
structure Extends (s : State) (start : ℕ) (t : Text) (s' : State) : Prop where
  parted : s'.Parted
  exists_new : ∃ new, s'.shown = s.shown ++ new ∧ Lays start t new

namespace Extends

variable {s s' : State} {start : ℕ} {t : Text}

theorem of_shown (hparted : s'.Parted) (hshown : s'.shown = s.shown) : Extends s start t s' :=
  ⟨hparted, [], by rw [hshown, List.append_nil], .nil _ _⟩

/-- What is remembered about code and tables does not count. -/
theorem flags (h : Extends s start t s') (inCode inTable : Bool) :
    Extends s start t { s' with inCode := inCode, inTable := inTable } :=
  ⟨h.parted, h.exists_new⟩

/-- Blocks that are closed first do not count as new. -/
theorem of_closeBlocks (hs : s.Parted) (h : Extends s.closeBlocks start t s') :
    Extends s start t s' := by
  obtain ⟨hparted, new, hnew, hlays⟩ := h
  exact ⟨hparted, new, by rw [hnew, shown_closeBlocks hs], hlays⟩

end Extends

theorem extends_leaveOut {s : State} (hs : s.Parted) (kind : OmittedKind) (start : ℕ) (t : Text) :
    Extends s start t (s.closeBlocks.leaveOut kind) := by
  have hclosed := closed_closeBlocks s
  exact .of_shown (hclosed.pushBlock _).parted
    ((shown_leaveOut hclosed kind).trans (shown_closeBlocks hs))

end State

open State

variable {s : State} {l : SourceLine} {start : ℕ} {feed : Text}

/-- A line of a paragraph that is open is joined to the line before. -/
theorem extends_addText (hs : s.Parted) (hfed : l.Fed start feed)
    (hjoin : s.paragraph ≠ none → feed ≠ []) (hl : '\n' ∉ l.text) (hne : l.text ≠ []) :
    Extends s start (feed ++ l.text) (addText s l) := by
  have hlays := lays_inline l.offset hl
  have hnew : shownOfAll (inline l.offset l.text) ≠ [] := shown_inlineFrom_ne_nil l.offset hne
  have hshown := shown_closeListsTo hs 0
  have hlists := lists_closeListsTo_zero hs
  have hopen := paragraph_closeListsTo hs 0
  unfold addText
  dsimp only
  split
  · rename_i children hparagraph
    have hjoined := hfed.lays_joined (hjoin (by simp [← hopen, hparagraph])) hl hnew hlays
    refine ⟨.inr hlists, _, ?_, hjoined⟩
    rw [← hshown]
    simp [State.shown, hparagraph, hlists]
  · rename_i hparagraph
    refine ⟨.inr hlists, _, ?_, hfed.lays hlays⟩
    rw [← hshown]
    simp [State.shown, hparagraph, hlists]

theorem extends_addPlainLine (hs : s.Parted) (hfed : l.Fed start feed)
    (hjoin : s.paragraph ≠ none → feed ≠ []) (hl : '\n' ∉ l.text) (hne : l.text ≠ []) :
    Extends s start (feed ++ l.text) (addPlainLine s l) := by
  unfold addPlainLine
  split
  · exact extends_leaveOut hs _ _ _
  · split
    · rename_i level body hheader
      have hclosed := closed_closeBlocks s
      refine .of_closeBlocks hs ⟨(hclosed.pushBlock _).parted, _, shown_pushBlock hclosed _, ?_⟩
      rw [shown_container]
      exact hfed.lays (lays_inlineEnd hl (suffix_of_header? hheader))
    · split
      · rename_i marks body hitem
        obtain ⟨hmarks, hsuffix⟩ := of_listItem? hitem
        obtain ⟨hparagraph, hshown⟩ := shown_addItem (paragraph_closeParagraph s) hmarks
          (marks.head? == some '#') (inlineEnd l body)
        rw [shown_closeParagraph hs] at hshown
        exact ⟨.inl hparagraph, _, hshown, hfed.lays (lays_inlineEnd hl hsuffix)⟩
      · exact extends_addText hs hfed hjoin hl hne

/-- A line adds leaves of its own behind what has been read. -/
theorem extends_addLine (hs : s.Parted) (hfed : l.Fed start feed)
    (hjoin : s.paragraph ≠ none → feed ≠ []) (hl : '\n' ∉ l.text) :
    Extends s start (feed ++ l.text) (addLine s l) := by
  unfold addLine
  dsimp only
  split
  · exact .of_shown hs rfl
  · exact (extends_leaveOut hs .codeBlock _ _).flags _ _
  · split
    · exact .of_shown (closed_closeBlocks s).parted (shown_closeBlocks hs)
    · rename_i hblank
      have hne : l.text ≠ [] := by
        intro hnil
        simp [hnil, Text.trim, Text.trimStart, Text.trimEnd] at hblank
      split
      · split
        · exact .of_shown hs rfl
        · exact (extends_leaveOut hs .table _ _).flags _ _
      · have hplain := extends_addPlainLine (s := { s with inTable := false }) hs hfed hjoin hl hne
        exact ⟨hplain.parted, hplain.exists_new⟩

/-- Behind the leaves of what has been read the leaves of the lines are laid. -/
theorem lays_foldl {ls : List Text} (hls : Text.AreLines ls) (start : ℕ) {feed : Text}
    (hfeed : feed = [] ∨ feed = ['\n']) (hs : s.Parted) (hjoin : s.paragraph ≠ none → feed ≠ []) :
    ((SourceLine.place (start + Text.byteLength feed) ls).foldl addLine s).Parted ∧
      ∃ new, ((SourceLine.place (start + Text.byteLength feed) ls).foldl addLine s).shown =
          s.shown ++ new ∧ (ls = [] → new = []) ∧ Lays start (feed ++ ls.flatten) new := by
  induction ls generalizing start feed s with
  | nil => exact ⟨hs, [], by simp [SourceLine.place], fun _ => rfl, .nil _ _⟩
  | cons l ls ih =>
    have hfed : SourceLine.Fed ⟨start + Text.byteLength feed, Text.chomp l⟩ start feed :=
      ⟨rfl, hfeed⟩
    obtain ⟨hparted, new, hnew, hlays⟩ :=
      extends_addLine hs hfed hjoin (hls.one_line l List.mem_cons_self)
    obtain ⟨hparted', more, hmore, hnil, hlays'⟩ :=
      ih hls.tail (start + Text.byteLength feed + Text.byteLength l - 1) (.inr rfl) hparted
        fun _ => List.cons_ne_nil '\n' []
    rw [next_start (hls.ne_nil l List.mem_cons_self)] at hparted' hmore
    rw [SourceLine.place, List.foldl_cons]
    exact ⟨hparted', new ++ more, by rw [hmore, hnew, List.append_assoc], by simp,
      .append_lines hls hlays hnil hlays'⟩

/-- The leaves of a wiki tree are laid in the source. -/
theorem lays_read (source : Text) : Lays 0 source (read source).shown := by
  have hstart : State.Parted {} := .inl rfl
  obtain ⟨hparted, new, hnew, -, hlays⟩ :=
    lays_foldl (Text.areLines_lines source) 0 (.inl rfl) hstart (by simp)
  change ((SourceLine.all source).foldl addLine {}).Parted at hparted
  change ((SourceLine.all source).foldl addLine {}).shown = new at hnew
  rw [List.nil_append, Text.flatten_lines] at hlays
  have hclosed := closed_closeBlocks ((SourceLine.all source).foldl addLine {})
  have hshown := shown_closeBlocks hparted
  rw [State.shown, hclosed.paragraph_eq, hclosed.lists_eq] at hshown
  have hblocks : (read source).shown = new := by
    rw [read, shown_container, ← hnew, ← hshown]
    simp
  rwa [hblocks]

end ProseLint.Markup.Wiki
