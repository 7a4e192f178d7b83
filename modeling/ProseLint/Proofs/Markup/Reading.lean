import ProseLint.Proofs.Markup.Offsets
import ProseLint.Proofs.Markup.WikiLaying

/-!
# Reading lines with other offsets

The readers of plain text and of wiki text look at the text of each line and copy its offset. From
lines that have the same texts they read trees of the same shape, and where two functions give the
same values at the offsets of the characters, they give the same values at the offsets of the
leaves.
-/
namespace ProseLint.Markup

open Node

/-- Two lines with the same text. Two functions give the same at the offsets of its characters, and
at those of the line feeds in front of it. -/
structure SourceLine.Agrees (f f' : ℕ → ℕ) (l l' : SourceLine) : Prop where
  text_eq : l.text = l'.text
  offset_eq : ∀ d < Text.byteLength l.text, f (l.offset + d) = f' (l'.offset + d)
  joiner_eq : f l.joinerOffset = f' l'.joinerOffset

variable {f f' : ℕ → ℕ} {l l' : SourceLine} {ls ls' : List SourceLine}

namespace Plain

variable {children children' : List Node}

theorem closeParagraph_congr (h : children.map (mapOffset f) = children'.map (mapOffset f')) :
    (closeParagraph children).map (mapOffset f) =
      (closeParagraph children').map (mapOffset f') := by
  unfold closeParagraph
  rw [← List.isEmpty_map (f := mapOffset f), h, List.isEmpty_map]
  split
  · rfl
  · simp [h]

theorem addLine_congr (h : children.map (mapOffset f) = children'.map (mapOffset f'))
    (hl : l.Agrees f f' l') (hne : l.text ≠ []) :
    (addLine children l).map (mapOffset f) = (addLine children' l').map (mapOffset f') := by
  have hoffset : f l.offset = f' l'.offset := hl.offset_eq 0 (Text.byteLength_pos hne)
  unfold addLine
  rw [← List.isEmpty_map (f := mapOffset f), h, List.isEmpty_map]
  split
  · simp [hoffset, hl.text_eq]
  · simp [h, hoffset, hl.joiner_eq, hl.text_eq]

theorem paragraphsFrom_congr (hls : List.Forall₂ (SourceLine.Agrees f f') ls ls')
    (h : children.map (mapOffset f) = children'.map (mapOffset f')) :
    (paragraphsFrom children ls).map (mapOffset f) =
      (paragraphsFrom children' ls').map (mapOffset f') := by
  induction hls generalizing children children' with
  | nil => exact closeParagraph_congr h
  | @cons l l' ls ls' hl _ ih =>
    rw [paragraphsFrom, paragraphsFrom, ← hl.text_eq]
    split
    · have hrest : (paragraphsFrom [] ls).map (mapOffset f) =
          (paragraphsFrom [] ls').map (mapOffset f') := ih rfl
      rw [List.map_append, List.map_append, closeParagraph_congr h, hrest]
    · rename_i hblank
      refine ih (addLine_congr h hl ?_)
      rintro hnil
      simp [hnil, Text.allBlank] at hblank

theorem read_congr {source source' : Text}
    (h : List.Forall₂ (SourceLine.Agrees f f') (SourceLine.all source) (SourceLine.all source')) :
    (read source).mapOffset f = (read source').mapOffset f' := by
  rw [read, read, mapOffset_container, mapOffset_container]
  exact congrArg (Node.container .root) (paragraphsFrom_congr h rfl)

end Plain

namespace Wiki

theorem textLeaf_congr {o o' : ℕ} {t : Text} (h : t ≠ [] → f o = f' o') :
    (textLeaf o t).map (mapOffset f) = (textLeaf o' t).map (mapOffset f') := by
  unfold textLeaf
  split
  · rfl
  · rename_i hempty
    simp [h (by simpa using hempty)]

/-- The nodes of a text copy the offsets of its characters. -/
theorem inlineFrom_congr {o o' : ℕ} {plain t : Text}
    (h : ∀ d < Text.byteLength plain + Text.byteLength t, f (o + d) = f' (o' + d)) :
    (inlineFrom o plain t).map (mapOffset f) = (inlineFrom o' plain t).map (mapOffset f') := by
  induction hn : t.length using Nat.strong_induction_on generalizing o o' plain t with
  | _ n ih =>
    subst hn
    have hpassed : (textLeaf o plain.reverse).map (mapOffset f) =
        (textLeaf o' plain.reverse).map (mapOffset f') := by
      refine textLeaf_congr fun hne => ?_
      have hpos := Text.byteLength_pos hne
      rw [Text.byteLength_reverse] at hpos
      exact h 0 (by omega)
    -- a later part of the text, at its distance from the start
    have hread : ∀ {u : Text} (d : ℕ), u.length < t.length →
        d + Text.byteLength u ≤ Text.byteLength plain + Text.byteLength t →
        (inlineFrom (o + d) [] u).map (mapOffset f) =
          (inlineFrom (o' + d) [] u).map (mapOffset f') := by
      intro u d hu hd
      refine ih _ hu (fun e he => ?_) rfl
      rw [Text.byteLength_nil, Nat.zero_add] at he
      rw [Nat.add_assoc, Nat.add_assoc]
      exact h (d + e) (by omega)
    rw [inlineFrom, inlineFrom]
    split
    · rename_i p rest hpiece
      obtain ⟨hbodyLength, hrestLength⟩ := length_of_piece? hpiece
      have hpos := Text.byteLength_pos (body_ne_nil_of_piece? hpiece)
      obtain ⟨mark, tail, ht, hmark⟩ := exists_of_piece? hpiece
      have hlength := congrArg Text.byteLength ht
      simp only [Text.byteLength_cons, Text.byteLength_append, hmark] at hlength
      have hbody := h (Text.byteLength plain + 1) (by omega)
      have hrest := hread (u := rest)
        (Text.byteLength plain + (Text.byteLength t - Text.byteLength rest)) hrestLength (by omega)
      simp only [← Nat.add_assoc] at hbody hrest
      dsimp only
      rw [List.map_append, List.map_append, hpassed, List.map_cons, List.map_cons, hrest]
      congr 2
      cases p with
      | link label url => simp [hbody]
      | address url => simp [Leaf.mapOffset, hbody]
      | emphasis inner =>
        have hinner := hread (u := inner) (Text.byteLength plain + 1) hbodyLength
          (by simp only [Piece.body] at hlength; omega)
        simp only [← Nat.add_assoc] at hinner
        simp [hinner]
    · cases t with
      | nil => exact hpassed
      | cons c u =>
        refine ih u.length (by simp) (fun d hd => h d ?_) rfl
        simp only [Text.byteLength_cons] at hd ⊢
        omega

theorem inline_congr {o o' : ℕ} {t : Text} (h : ∀ d < Text.byteLength t, f (o + d) = f' (o' + d)) :
    (inline o t).map (mapOffset f) = (inline o' t).map (mapOffset f') :=
  inlineFrom_congr (by simpa using h)

theorem inlineEnd_congr (hl : l.Agrees f f' l') {body : Text} (hb : body <:+ l.text) :
    (inlineEnd l body).map (mapOffset f) = (inlineEnd l' body).map (mapOffset f') := by
  obtain ⟨front, hfront⟩ := hb
  have hlength := congrArg Text.byteLength hfront
  rw [Text.byteLength_append] at hlength
  rw [inlineEnd, inlineEnd, ← hl.text_eq]
  refine inline_congr fun d hd => ?_
  rw [Nat.add_assoc, Nat.add_assoc]
  exact hl.offset_eq _ (by omega)

def OpenList.mapOffset (f : ℕ → ℕ) (l : OpenList) : OpenList :=
  { l with items := l.items.map fun item => item.map (Node.mapOffset f) }

namespace OpenList

@[simp] theorem mapOffset_toNode (f : ℕ → ℕ) (l : OpenList) :
    l.toNode.mapOffset f = (l.mapOffset f).toNode := by
  obtain ⟨ordered, items⟩ := l
  cases ordered <;> simp [toNode, mapOffset, Function.comp_def]

@[simp] theorem mapOffset_addItem (f : ℕ → ℕ) (content : List Node) (l : OpenList) :
    (l.addItem content).mapOffset f = (l.mapOffset f).addItem (content.map (Node.mapOffset f)) := by
  simp [addItem, mapOffset]

@[simp] theorem mapOffset_hang (f : ℕ → ℕ) (n : Node) (l : OpenList) :
    (l.hang n).mapOffset f = (l.mapOffset f).hang (n.mapOffset f) := by
  obtain ⟨ordered, items⟩ := l
  rcases List.eq_nil_or_concat' items with rfl | ⟨init, item, rfl⟩
  · simp [hang, mapOffset]
  · simp [hang, mapOffset]

end OpenList

namespace State

/-- A state with all offsets in it mapped. -/
def mapOffset (f : ℕ → ℕ) (s : State) : State :=
  { s with
    blocks := s.blocks.map (Node.mapOffset f)
    paragraph := s.paragraph.map fun children => children.map (Node.mapOffset f)
    lists := s.lists.map (OpenList.mapOffset f) }

variable (f : ℕ → ℕ) (s : State)

@[simp] theorem mapOffset_pushBlock (n : Node) :
    (s.pushBlock n).mapOffset f = (s.mapOffset f).pushBlock (n.mapOffset f) := by
  simp [pushBlock, mapOffset]

@[simp] theorem mapOffset_leaveOut (kind : OmittedKind) :
    (s.leaveOut kind).mapOffset f = (s.mapOffset f).leaveOut kind := by
  simp [leaveOut, Leaf.mapOffset]

@[simp] theorem mapOffset_closeParagraph :
    s.closeParagraph.mapOffset f = (s.mapOffset f).closeParagraph := by
  obtain ⟨blocks, paragraph, lists, inCode, inTable⟩ := s
  cases paragraph <;> simp [closeParagraph, pushBlock, mapOffset]

@[simp] theorem mapOffset_closeInnermostList :
    s.closeInnermostList.mapOffset f = (s.mapOffset f).closeInnermostList := by
  obtain ⟨blocks, paragraph, lists, inCode, inTable⟩ := s
  match lists with
  | [] => rfl
  | [l] => simp [closeInnermostList, pushBlock, mapOffset]
  | l :: outer :: rest => simp [closeInnermostList, mapOffset]

@[simp] theorem mapOffset_closeListsTo (depth : ℕ) :
    (s.closeListsTo depth).mapOffset f = (s.mapOffset f).closeListsTo depth := by
  have hrepeat : ∀ n, (Nat.repeat closeInnermostList n s).mapOffset f =
      Nat.repeat closeInnermostList n (s.mapOffset f) := by
    intro n
    induction n with
    | zero => rfl
    | succ n ih => rw [Nat.repeat, Nat.repeat, mapOffset_closeInnermostList, ih]
  have hlength : (s.mapOffset f).lists.length = s.lists.length := by simp [mapOffset]
  rw [closeListsTo, closeListsTo, hlength, hrepeat]

@[simp] theorem mapOffset_closeBlocks :
    s.closeBlocks.mapOffset f = (s.mapOffset f).closeBlocks := by
  have h := mapOffset_closeListsTo f s.closeParagraph 0
  rw [mapOffset_closeParagraph] at h
  rw [closeBlocks, closeBlocks, ← h]
  rfl

@[simp] theorem mapOffset_addItem (depth : ℕ) (ordered : Bool) (content : List Node) :
    (s.addItem depth ordered content).mapOffset f =
      (s.mapOffset f).addItem depth ordered (content.map (Node.mapOffset f)) := by
  unfold addItem
  rw [← mapOffset_closeListsTo]
  generalize s.closeListsTo depth = s
  let opened : OpenList := ⟨ordered, []⟩
  have hlists : List.replicate (depth - (s.mapOffset f).lists.length) opened ++
      (s.mapOffset f).lists =
        (List.replicate (depth - s.lists.length) opened ++ s.lists).map (OpenList.mapOffset f) := by
    have hopened : opened.mapOffset f = opened := rfl
    simp [mapOffset, hopened]
  dsimp only
  rw [hlists]
  generalize List.replicate (depth - s.lists.length) opened ++ s.lists = lists
  cases lists with
  | nil => rfl
  | cons l rest => simp [mapOffset]

end State

variable {s s' : State}

/-- What is remembered about code and tables goes along. -/
theorem State.mapOffset_flags (h : s.mapOffset f = s'.mapOffset f') (inCode inTable : Bool) :
    ({ s with inCode := inCode, inTable := inTable } : State).mapOffset f =
      ({ s' with inCode := inCode, inTable := inTable } : State).mapOffset f' :=
  congrArg (fun s : State => { s with inCode := inCode, inTable := inTable }) h

theorem addText_congr (h : s.mapOffset f = s'.mapOffset f') (hl : l.Agrees f f' l') :
    (addText s l).mapOffset f = (addText s' l').mapOffset f' := by
  have hclosed : (s.closeListsTo 0).mapOffset f = (s'.closeListsTo 0).mapOffset f' := by
    rw [State.mapOffset_closeListsTo, State.mapOffset_closeListsTo, h]
  have hnodes := inline_congr hl.offset_eq
  unfold addText
  rw [← hl.text_eq]
  generalize s.closeListsTo 0 = s at hclosed ⊢
  generalize s'.closeListsTo 0 = s' at hclosed ⊢
  obtain ⟨blocks, paragraph, lists, inCode, inTable⟩ := s
  obtain ⟨blocks', paragraph', lists', inCode', inTable'⟩ := s'
  cases paragraph <;> cases paragraph' <;> simp_all [State.mapOffset, hl.joiner_eq]

theorem addPlainLine_congr (h : s.mapOffset f = s'.mapOffset f') (hl : l.Agrees f f' l') :
    (addPlainLine s l).mapOffset f = (addPlainLine s' l').mapOffset f' := by
  unfold addPlainLine
  rw [← hl.text_eq]
  split
  · simp [h]
  · split
    · rename_i level body hheader
      simp [h, inlineEnd_congr hl (suffix_of_header? hheader)]
    · split
      · rename_i marks body hitem
        simp [h, inlineEnd_congr hl (of_listItem? hitem).2]
      · exact addText_congr h hl

/-- What is known about a line but for its offset decides what becomes of it. -/
theorem addLine_congr (h : s.mapOffset f = s'.mapOffset f') (hl : l.Agrees f f' l') :
    (addLine s l).mapOffset f = (addLine s' l').mapOffset f' := by
  have hclosed : s.closeBlocks.mapOffset f = s'.closeBlocks.mapOffset f' := by
    rw [State.mapOffset_closeBlocks, State.mapOffset_closeBlocks, h]
  have hcode : (s.mapOffset f).inCode = (s'.mapOffset f').inCode := by rw [h]
  have htable : (s.mapOffset f).inTable = (s'.mapOffset f').inTable := by rw [h]
  change s.inCode = s'.inCode at hcode
  change s.inTable = s'.inTable at htable
  have hleave : ∀ kind, (s.closeBlocks.leaveOut kind).mapOffset f =
      (s'.closeBlocks.leaveOut kind).mapOffset f' := by
    intro kind
    rw [State.mapOffset_leaveOut, State.mapOffset_leaveOut, hclosed]
  unfold addLine
  rw [← hl.text_eq, ← hcode, ← htable]
  dsimp only
  split
  · exact State.mapOffset_flags h _ s.inTable
  · exact State.mapOffset_flags (hleave .codeBlock) _ false
  · split
    · exact hclosed
    · split
      · split
        · exact h
        · exact congrArg (fun s : State => { s with inTable := true }) (hleave .table)
      · exact addPlainLine_congr (State.mapOffset_flags h s.inCode false) hl

theorem foldl_addLine_congr (hls : List.Forall₂ (SourceLine.Agrees f f') ls ls')
    (h : s.mapOffset f = s'.mapOffset f') :
    (ls.foldl addLine s).mapOffset f = (ls'.foldl addLine s').mapOffset f' := by
  induction hls generalizing s s' with
  | nil => exact h
  | cons hl _ ih => exact ih (addLine_congr h hl)

theorem read_congr {source source' : Text}
    (h : List.Forall₂ (SourceLine.Agrees f f') (SourceLine.all source) (SourceLine.all source')) :
    (read source).mapOffset f = (read source').mapOffset f' := by
  have hblocks : ((SourceLine.all source).foldl addLine {}).closeBlocks.mapOffset f =
      ((SourceLine.all source').foldl addLine {}).closeBlocks.mapOffset f' := by
    rw [State.mapOffset_closeBlocks, State.mapOffset_closeBlocks]
    exact congrArg State.closeBlocks (foldl_addLine_congr h rfl)
  rw [read, read, mapOffset_container, mapOffset_container]
  exact congrArg (fun s : State => Node.container .root s.blocks) hblocks

end Wiki
end ProseLint.Markup
