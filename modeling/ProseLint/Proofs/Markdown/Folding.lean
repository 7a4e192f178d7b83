import ProseLint.Proofs.Markdown.Elements

/-!
# Folding any sequence of events

The events of a text may end tags that none has started, or leave tags open. While no more tags have
ended than started, the events taken in are those of elements and of tags that are still open around
them, and the frames hold their nodes. So folding fails at the first end that is one too many, and
else gives the tree that the events have with an end for each tag that is still open.
-/
namespace ProseLint.Markdown

open Markup (Container Leaf Node)

namespace Frames

variable {s s' : Frames} {e : EventAt} {es : List EventAt}

/-- What taking in an event does. -/
theorem step_cases (s : Frames) (e : EventAt) :
    (∃ tag, e.event = .start tag ∧
      s.step e = .ok ⟨⟨shape e.offset tag, []⟩, s.top :: s.below⟩) ∨
    (e.event.isLeaf = true ∧ s.step e = .ok (s.add (e.leaf?.map Node.leaf).toList)) ∨
    (e.event = .finish ∧ s.below = [] ∧ s.step e = .error e.offset) ∨
    ∃ outer rest, e.event = .finish ∧ s.below = outer :: rest ∧
      s.step e = .ok ((⟨outer, rest⟩ : Frames).add [s.top.toNode]) := by
  obtain ⟨offset, event⟩ := e
  by_cases hleaf : event.isLeaf = true
  · exact .inr (.inl ⟨hleaf, step_leaf hleaf⟩)
  · cases event with
    | start tag => exact .inl ⟨tag, rfl, rfl⟩
    | finish =>
      obtain ⟨top, below⟩ := s
      cases below with
      | nil => exact .inr (.inr (.inl ⟨rfl, rfl, rfl⟩))
      | cons outer rest => exact .inr (.inr (.inr ⟨outer, rest, rfl, rfl, rfl⟩))
    | _ => exact absurd rfl hleaf

/-- The number of open tags counts the starts and ends of an event that is taken in. -/
theorem depth_step (h : s.step e = .ok s') :
    s'.below.length + finishes [e] = s.below.length + starts [e] := by
  rcases s.step_cases e with ⟨tag, htag, hstep⟩ | ⟨hleaf, hstep⟩ | ⟨-, -, hstep⟩ |
    ⟨outer, rest, hfinish, hbelow, hstep⟩ <;> rw [hstep] at h
  · obtain rfl := Except.ok.inj h
    simp [starts, finishes, htag, Event.isStart, Event.isFinish]
  · obtain rfl := Except.ok.inj h
    simp only [Event.isLeaf, Bool.and_eq_true, Bool.not_eq_true'] at hleaf
    simp [starts, finishes, hleaf]
  · cases h
  · obtain rfl := Except.ok.inj h
    simp [starts, finishes, hfinish, hbelow, Event.isStart, Event.isFinish]

/-- From `depth` open tags on, the events end no more tags than are open. -/
def Fits (depth : ℕ) (es : List EventAt) : Prop :=
  ∀ p, p <+: es → finishes p ≤ depth + starts p

theorem fits_nil (depth : ℕ) : Fits depth [] := by
  intro p hp
  rw [List.prefix_nil.mp hp]
  exact Nat.zero_le _

theorem fits_cons {depth depth' : ℕ} (h : depth' + finishes [e] = depth + starts [e]) :
    Fits depth (e :: es) ↔ Fits depth' es := by
  constructor
  · intro hfits p hp
    have hle := hfits ([e] ++ p) (List.cons_prefix_cons.mpr ⟨rfl, hp⟩)
    rw [starts_append, finishes_append] at hle
    omega
  · intro hfits p hp
    rcases List.prefix_cons_iff.mp hp with rfl | ⟨q, rfl, hq⟩
    · exact Nat.zero_le _
    · have hle := hfits q hq
      rw [← List.singleton_append, starts_append, finishes_append]
      omega

/-- Events that end no more tags than are open are taken in, and the others fail at the first end
that is one too many. -/
theorem steps_cases (s : Frames) (es : List EventAt) :
    (∃ s', s.steps es = .ok s' ∧ Fits s.below.length es ∧
      s'.below.length + finishes es = s.below.length + starts es) ∨
    ∃ before offset after, es = before ++ ⟨offset, .finish⟩ :: after ∧
      s.steps es = .error offset ∧ Fits s.below.length before ∧
      finishes before = s.below.length + starts before := by
  induction es generalizing s with
  | nil => exact .inl ⟨s, rfl, fits_nil _, rfl⟩
  | cons e es ih =>
    cases hstep : s.step e with
    | ok s' =>
      have hdepth := depth_step hstep
      have hsteps : s.steps (e :: es) = s'.steps es := by rw [steps, hstep]
      rw [hsteps]
      rcases ih s' with ⟨s'', hok, hfits, hcount⟩ |
        ⟨before, offset, after, rfl, herror, hfits, hcount⟩
      · refine .inl ⟨s'', hok, (fits_cons hdepth).mpr hfits, ?_⟩
        rw [← List.singleton_append, starts_append, finishes_append]
        omega
      · refine .inr ⟨e :: before, offset, after, rfl, herror, (fits_cons hdepth).mpr hfits, ?_⟩
        rw [← List.singleton_append, starts_append, finishes_append]
        omega
    | error offset =>
      refine .inr ⟨[], offset, es, ?_⟩
      rcases s.step_cases e with ⟨tag, -, h⟩ | ⟨-, h⟩ | ⟨hfinish, hbelow, h⟩ | ⟨_, _, -, -, h⟩ <;>
        rw [hstep] at h
      · cases h
      · cases h
      · obtain rfl := Except.error.inj h
        refine ⟨?_, by rw [steps, hstep], fits_nil _, by rw [hbelow]; rfl⟩
        obtain ⟨offset, event⟩ := e
        obtain rfl : event = .finish := hfinish
        rfl
      · cases h

/-- Events of elements at the root and inside tags that are still open, and the frames with the
nodes of these elements. -/
inductive Opened : List EventAt → Frames → Prop
  | root (xs : List Element) : Opened (eventsOf xs) (root.add (nodesOf xs))
  | inside {es : List EventAt} {s : Frames} (h : Opened es s) (offset : ℕ) (tag : Tag)
      (xs : List Element) : Opened (es ++ ⟨offset, .start tag⟩ :: eventsOf xs)
        ⟨⟨shape offset tag, nodesOf xs⟩, s.top :: s.below⟩

namespace Opened

theorem add (h : Opened es s) (x : Element) : Opened (es ++ x.events) (s.add x.nodes) := by
  cases h with
  | root xs =>
    have hroot := root (xs ++ [x])
    rwa [eventsOf_append, nodesOf_append, eventsOf_singleton, nodesOf_singleton, ← add_add] at hroot
  | inside h offset tag xs =>
    have hinside := h.inside offset tag (xs ++ [x])
    rw [eventsOf_append, nodesOf_append, eventsOf_singleton, nodesOf_singleton] at hinside
    rwa [List.append_assoc, List.cons_append]

theorem step (h : Opened es s) (hstep : s.step e = .ok s') : Opened (es ++ [e]) s' := by
  rcases s.step_cases e with ⟨tag, htag, h'⟩ | ⟨hleaf, h'⟩ | ⟨-, -, h'⟩ |
    ⟨outer, rest, hfinish, hbelow, h'⟩ <;> rw [h'] at hstep
  · obtain rfl := Except.ok.inj hstep
    obtain ⟨offset, event⟩ := e
    obtain rfl : event = .start tag := htag
    exact h.inside offset tag []
  · obtain rfl := Except.ok.inj hstep
    exact h.add (.leaf e hleaf)
  · cases hstep
  · obtain rfl := Except.ok.inj hstep
    obtain ⟨stop, event⟩ := e
    obtain rfl : event = .finish := hfinish
    cases h with
    | root xs => cases hbelow
    | @inside es s h offset tag xs =>
      -- The tag that ends is an element of the tag around it.
      obtain ⟨rfl, rfl⟩ := List.cons.inj hbelow
      have hadd := h.add (.tag offset tag xs stop)
      rw [← toNode_nodes, Element.events] at hadd
      rwa [List.append_assoc]

theorem steps {es' : List EventAt} (h : Opened es s) (hsteps : s.steps es' = .ok s') :
    Opened (es ++ es') s' := by
  induction es' generalizing es s with
  | nil =>
    obtain rfl := Except.ok.inj hsteps
    rwa [List.append_nil]
  | cons e es' ih =>
    rw [Frames.steps] at hsteps
    split at hsteps
    · rename_i s'' hstep
      have hrest := ih (h.step hstep) hsteps
      rwa [List.append_assoc, List.singleton_append] at hrest
    · cases hsteps

/-- Closing the open tags gives the tree that the events have with as many ends behind them. -/
theorem closeAll {closing : List EventAt} (h : Opened es s)
    (hclosing : ∀ e ∈ closing, e.event = .finish) (hlength : closing.length = s.below.length) :
    ∃ xs, eventsOf xs = es ++ closing ∧
      Frames.closeAll s.top s.below = .container .root (nodesOf xs) := by
  induction closing generalizing es s with
  | nil =>
    cases h with
    | root xs => exact ⟨xs, (List.append_nil _).symm, rfl⟩
    | inside => cases hlength
  | cons e closing ih =>
    obtain ⟨hfinish, hrest⟩ := List.forall_mem_cons.mp hclosing
    obtain ⟨stop, event⟩ := e
    obtain rfl : event = .finish := hfinish
    obtain ⟨top, below⟩ := s
    cases below with
    | nil => cases hlength
    | cons outer rest =>
      have hstep : (⟨top, outer :: rest⟩ : Frames).step ⟨stop, .finish⟩ =
          .ok ((⟨outer, rest⟩ : Frames).add [top.toNode]) := step_finish
      obtain ⟨xs, hevents, hclose⟩ := ih (h.step hstep) hrest (Nat.succ.inj hlength)
      exact ⟨xs, by rw [hevents, List.append_assoc]; rfl, hclose⟩

end Opened
end Frames

section

variable {es : List EventAt}

theorem treeOfEvents_cases (es : List EventAt) :
    (∃ s, Frames.Opened es s ∧ treeOfEvents es = .ok (Frames.closeAll s.top s.below) ∧
      (∀ p, p <+: es → finishes p ≤ starts p) ∧ s.below.length = starts es - finishes es) ∨
    ∃ before offset after, es = before ++ ⟨offset, .finish⟩ :: after ∧
      treeOfEvents es = .error offset ∧ (∀ p, p <+: before → finishes p ≤ starts p) ∧
      finishes before = starts before := by
  have hdepth : Frames.root.below.length = 0 := rfl
  rcases Frames.root.steps_cases es with ⟨s, hok, hfits, hcount⟩ |
    ⟨before, offset, after, rfl, herror, hfits, hcount⟩
  · rw [hdepth] at hcount
    refine .inl ⟨s, ?_, by rw [treeOfEvents, hok], fun p hp => ?_, by omega⟩
    · exact (Frames.Opened.root []).steps hok
    · simpa [hdepth] using hfits p hp
  · rw [hdepth, Nat.zero_add] at hcount
    refine .inr ⟨before, offset, after, rfl, by rw [treeOfEvents, herror], fun p hp => ?_, hcount⟩
    simpa [hdepth] using hfits p hp

theorem exists_error_iff :
    (∃ offset, treeOfEvents es = .error offset) ↔ ∃ p, p <+: es ∧ starts p < finishes p := by
  rcases treeOfEvents_cases es with ⟨s, -, hok, hfits, -⟩ |
    ⟨before, offset, after, rfl, herror, -, hcount⟩
  · rw [hok]
    simpa using hfits
  · refine iff_of_true ⟨offset, herror⟩ ⟨before ++ [⟨offset, .finish⟩], ⟨after, ?_⟩, ?_⟩
    · rw [List.append_assoc, List.singleton_append]
    · rw [starts_append, finishes_append, hcount]
      exact Nat.lt_succ_self _

end

/-- Folding events fails exactly when in some initial part of them more tags end than start, and
that at the first such end; only then is a text malformed. Else it gives a root: the tree that the
events have with an end for each tag that is open. The events of any elements give the nodes of the
elements, whose leaves are those of the visible events, in their order and with their offsets;
hidden is what stands inside a tag for what is left out and for an address. A tree of nodes is
rebuilt from the events of its containers and leaves if there is no root inside it and none of its
text leaves is a typographic glyph, which would be read as a special leaf. -/
theorem treeOfEvents_rebuilds :
    (∀ es, (∃ offset, treeOfEvents es = .error offset) ↔ ∃ p, p <+: es ∧ starts p < finishes p) ∧
    (∀ es offset, treeOfEvents es = .error offset → ∃ before after,
      es = before ++ ⟨offset, .finish⟩ :: after ∧ ∀ p, p <+: before → finishes p ≤ starts p) ∧
    (∀ text, (∃ reason, Parse.tree .markdown text = .error (.malformed reason)) ↔
      ∃ p, p <+: events Options.standard text ∧ starts p < finishes p) ∧
    (∀ es closing, (∀ p, p <+: es → finishes p ≤ starts p) → (∀ e ∈ closing, e.event = .finish) →
      closing.length = starts es - finishes es → ∃ xs, eventsOf xs = es ++ closing ∧
        treeOfEvents es = .ok (.container .root (nodesOf xs))) ∧
    (∀ xs, treeOfEvents (eventsOf xs) = .ok (.container .root (nodesOf xs)) ∧
      Node.leavesOfAll (nodesOf xs) = (visibleOf xs).filterMap EventAt.leaf? ∧
      (visibleOf xs).Sublist (eventsOf xs)) ∧
    (∀ ns, allInner ns = true →
      treeOfEvents (eventsOf (elementsOfAll ns)) = .ok (.container .root ns)) ∧
    (∀ (e : EventAt) (l : Leaf), e.leaf? = some l →
      (∃ kind, l = .omitted kind) ∨ l.offset = e.offset) ∧
    ∀ offset tag l, shape offset tag = .leaf l → (∃ kind, l = .omitted kind) ∨
      ∃ url, tag = .link .autolink url ∧ l = .autolink offset url := by
  have helements : ∀ xs, treeOfEvents (eventsOf xs) = .ok (.container .root (nodesOf xs)) := by
    intro xs
    rw [treeOfEvents, Frames.steps_eventsOf Frames.root xs]
    rfl
  refine ⟨fun es => exists_error_iff, fun es offset herror => ?_, fun text => ?_,
    fun es closing hfits hclosing hlength => ?_, fun xs => ⟨helements xs, leaves_nodesOf xs,
      visibleOf_sublist xs⟩, fun ns hinner => ?_, fun e l => offset_of_leaf?,
      fun offset tag l => shape_eq_leaf⟩
  · rcases treeOfEvents_cases es with ⟨s, -, hok, -⟩ |
      ⟨before, offset', after, rfl, herror', hfits, -⟩
    · rw [hok] at herror
      cases herror
    · obtain rfl : offset' = offset := Except.error.inj (herror'.symm.trans herror)
      exact ⟨before, after, rfl, hfits⟩
  · rw [← exists_error_iff]
    simp only [Parse.tree, read]
    cases treeOfEvents (events Options.standard text) <;> simp
  · rcases treeOfEvents_cases es with ⟨s, hopened, hok, -, hdepth⟩ |
      ⟨before, offset, after, rfl, herror, -⟩
    · obtain ⟨xs, hevents, hclose⟩ := hopened.closeAll hclosing (hlength.trans hdepth.symm)
      exact ⟨xs, hevents, by rw [hok, hclose]⟩
    · obtain ⟨p, hp, hlt⟩ := exists_error_iff.mp ⟨offset, herror⟩
      exact absurd hlt (hfits p hp).not_gt
  · rw [helements, nodesOf_elementsOfAll ns hinner]

/-- An image that is left open inside a link: the text in it is left out. -/
theorem treeOfEvents_rebuilds_of_open_image :
    let es : List EventAt := [⟨0, .start .paragraph⟩, ⟨0, .start (.link .labelled ['u'])⟩,
      ⟨1, .text ['a']⟩, ⟨2, .start (.image ['v'])⟩, ⟨4, .text ['b']⟩]
    let closing : List EventAt := [⟨5, .finish⟩, ⟨5, .finish⟩, ⟨9, .finish⟩]
    (∀ p, p <+: es → finishes p ≤ starts p) ∧ (∀ e ∈ closing, e.event = .finish) ∧
      closing.length = starts es - finishes es ∧
      (∃ xs, eventsOf xs = es ++ closing ∧
        treeOfEvents es = .ok (.container .root (nodesOf xs))) ∧
      allInner [.container .quote [.leaf (.omitted .rule)]] = true ∧
      treeOfEvents (eventsOf (elementsOfAll [.container .quote [.leaf (.omitted .rule)]])) =
        .ok (.container .root [.container .quote [.leaf (.omitted .rule)]]) ∧
      (⟨1, .text ['a']⟩ : EventAt).leaf? = some (.text 1 ['a']) ∧
      ((∃ kind, Leaf.text 1 ['a'] = .omitted kind) ∨ (Leaf.text 1 ['a']).offset = 1) ∧
      shape 2 (.image ['v']) = .leaf (.omitted .image) ∧
      ((∃ kind, Leaf.omitted .image = .omitted kind) ∨
        ∃ url, Tag.image ['v'] = .link .autolink url ∧ Leaf.omitted .image = .autolink 2 url) ∧
      treeOfEvents [⟨3, .finish⟩] = .error 3 ∧
      ∃ before after, [⟨3, .finish⟩] = before ++ ⟨3, .finish⟩ :: after ∧
        ∀ p, p <+: before → finishes p ≤ starts p := by
  intro es closing
  have hinits : ∀ p ∈ es.inits, finishes p ≤ starts p := by decide
  have hfits : ∀ p, p <+: es → finishes p ≤ starts p :=
    fun p hp => hinits p ((List.mem_inits p es).mpr hp)
  have hclosing : ∀ e ∈ closing, e.event = .finish := by decide
  have hlength : closing.length = starts es - finishes es := by decide
  obtain ⟨-, hfirst, -, hopen, -, htree, hoffset, hshape⟩ := treeOfEvents_rebuilds
  exact ⟨hfits, hclosing, hlength, hopen es closing hfits hclosing hlength, rfl, htree _ rfl, rfl,
    hoffset ⟨1, .text ['a']⟩ _ rfl, rfl, hshape 2 _ _ rfl, rfl, hfirst _ 3 rfl⟩

end ProseLint.Markdown
