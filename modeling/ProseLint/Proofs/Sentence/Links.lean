import ProseLint.Proofs.Sentence.Extraction
import ProseLint.Proofs.Sentence.Shares

/-!
# The sentence of a link

Each character of a text is marked with the urls that are due at it: the sentence that receives the
character must list them. A span brings its url at its last character. The session hands the url on
to the sentence that has received the last piece of the span, which holds that character unless it
is blank, or a closer that has gone to the sentence before.
-/
namespace ProseLint

/-- A text with the urls that are due at its characters. -/
abbrev DueText := Marked (List Text)

/-- Nothing is due. -/
def Free (m : DueText) : Prop := ∀ x ∈ m, x.2 = []

namespace Free

variable {m n : DueText}

theorem left (h : Free (m ++ n)) : Free m := fun x hx => h x (by simp [hx])

theorem right (h : Free (m ++ n)) : Free n := fun x hx => h x (by simp [hx])

theorem const (t : Text) : Free (Marked.const [] t) := fun _ hx => Marked.mark_eq_of_mem_const hx

theorem append (hm : Free m) (hn : Free n) : Free (m ++ n) := by
  intro x hx
  rcases List.mem_append.mp hx with hx | hx
  · exact hm x hx
  · exact hn x hx

theorem ink (h : Free m) : Free (Marked.ink m) := fun x hx => h x (List.mem_of_mem_filter hx)

end Free

/-- What is due in a text with a link: nothing, or the url at the last character, when that is
neither a blank nor a closer. -/
inductive Due : Text → Option Text → DueText → Prop
  | free {m : DueText} {link : Option Text} (free : Free m) : Due (Marked.text m) link m
  | last {init : DueText} {c : Char} {url : Text} (free : Free init) (ink : isBlank c = false)
      (plain : isCloser c = false) :
      Due (Marked.text init ++ [c]) (some url) (init ++ [(c, [url])])

namespace Due

variable {text : Text} {link : Option Text} {m : DueText}

theorem text_eq (h : Due text link m) : Marked.text m = text := by
  cases h with
  | free => rfl
  | last => simp

theorem eq_nil (h : Due text link m) (ht : text = []) : m = [] := by
  rwa [← h.text_eq, Marked.text_eq_nil] at ht

theorem takeWhile_concat {p : Char → Bool} {c : Char} (hc : p c = false) (t : Text) :
    (t ++ [c]).takeWhile p = t.takeWhile p ∧ (t ++ [c]).dropWhile p = t.dropWhile p ++ [c] := by
  induction t with
  | nil => simp [hc]
  | cons d t ih => cases hd : p d <;> simp [hd, ih]

/-- Nothing is due at the closers in front. -/
theorem exists_dropWhile (h : Due text link m) :
    ∃ m₁ m₂, m = m₁ ++ m₂ ∧ Marked.text m₁ = text.takeWhile isCloser ∧ Free m₁ ∧
      Due (text.dropWhile isCloser) link m₂ := by
  cases h with
  | @free m link free =>
    obtain ⟨m₁, m₂, rfl, h₁, h₂⟩ := Marked.exists_append_of_text
      (List.takeWhile_append_dropWhile (p := isCloser) (l := Marked.text m)).symm
    rw [← h₂]
    exact ⟨m₁, m₂, rfl, h₁, free.left, .free free.right⟩
  | @last init c url free ink plain =>
    obtain ⟨m₁, m₂, rfl, h₁, h₂⟩ := Marked.exists_append_of_text
      (List.takeWhile_append_dropWhile (p := isCloser) (l := Marked.text init)).symm
    obtain ⟨htake, hdrop⟩ := takeWhile_concat plain (Marked.text (m₁ ++ m₂))
    rw [htake, hdrop, ← h₂]
    exact ⟨m₁, m₂ ++ [(c, [url])], by simp, h₁, free.left, .last free.right ink plain⟩

end Due

/-- The share of a sentence in a text is its ink, and the sentence lists every url that is due
there. -/
structure Sentence.Bears (s : Sentence) (share : DueText) : Prop where
  nonempty : share ≠ []
  text_eq : Marked.text share = Text.ink s.content
  lists : ∀ x ∈ share, ∀ url ∈ x.2, url ∈ s.links

namespace Sentence.Bears

variable {s s' : Sentence} {share m : DueText}

theorem ink_ne_nil (h : s.Bears share) : Text.ink s.content ≠ [] := by
  rw [← h.text_eq, ne_eq, Marked.text_eq_nil]
  exact h.nonempty

/-- Blanks do not count, and a sentence may list further urls. -/
theorem congr (h : s.Bears share) (hink : Text.ink s'.content = Text.ink s.content)
    (hlinks : ∀ url ∈ s.links, url ∈ s'.links) : s'.Bears share :=
  ⟨h.nonempty, h.text_eq.trans hink.symm, fun x hx url hurl => hlinks url (h.lists x hx url hurl)⟩

/-- A text at which nothing is due can be added to the sentence. -/
theorem append (h : s.Bears share) (hm : Free m) :
    { s with content := s.content ++ Marked.text m }.Bears (share ++ Marked.ink m) := by
  refine ⟨by simp [h.nonempty], by simp [h.text_eq], fun x hx url hurl => ?_⟩
  rcases List.mem_append.mp hx with hx | hx
  · exact h.lists x hx url hurl
  · simp [hm.ink x hx] at hurl

/-- A sentence that lists a url bears it where nothing has been due so far. -/
theorem due {c : Char} {url : Text} (h : s.Bears (share ++ [(c, [])])) :
    { s with links := s.links ++ [url] }.Bears (share ++ [(c, [url])]) := by
  refine ⟨by simp, by simpa using h.text_eq, fun x hx u hu => ?_⟩
  rcases List.mem_append.mp hx with hx | hx
  · have := h.lists x (by simp [hx]) u hu
    simp [this]
  · obtain rfl := List.mem_singleton.mp hx
    obtain rfl := List.mem_singleton.mp hu
    simp

end Sentence.Bears

/-- An inked text is dealt out to sentences, each of which bears its share. -/
def Bear (ss : List Sentence) (inked : DueText) : Prop :=
  ∃ shares : List DueText, inked = shares.flatten ∧ List.Forall₂ Sentence.Bears ss shares

namespace Bear

variable {ss ss' : List Sentence} {s : Sentence} {inked inked' share : DueText}

theorem nil : Bear [] [] := ⟨[], rfl, .nil⟩

theorem append (h : Bear ss inked) (h' : Bear ss' inked') : Bear (ss ++ ss') (inked ++ inked') := by
  obtain ⟨shares, rfl, hshares⟩ := h
  obtain ⟨shares', rfl, hshares'⟩ := h'
  exact ⟨shares ++ shares', by simp, List.rel_append hshares hshares'⟩

theorem concat (h : Bear ss inked) (hs : s.Bears share) : Bear (ss ++ [s]) (inked ++ share) :=
  h.append ⟨[share], by simp, .cons hs .nil⟩

theorem exists_last (h : Bear (ss ++ [s]) inked) :
    ∃ front share, inked = front ++ share ∧ Bear ss front ∧ s.Bears share := by
  obtain ⟨shares, rfl, hshares⟩ := h
  obtain ⟨front, share, rfl, hfront, hs⟩ := exists_of_forall₂_concat hshares
  exact ⟨front.flatten, share, by simp, ⟨front, rfl, hfront⟩, hs⟩

/-- The last sentence may be replaced by one that bears what it bears. -/
theorem replace_last {s' : Sentence} (h : Bear (ss ++ [s]) inked)
    (hs : ∀ share, s.Bears share → s'.Bears share) : Bear (ss ++ [s']) inked := by
  obtain ⟨front, share, rfl, hfront, hshare⟩ := h.exists_last
  exact hfront.concat (hs share hshare)

theorem append_last {m : DueText} (h : Bear (ss ++ [s]) inked) (hm : Free m) :
    Bear (ss ++ [{ s with content := s.content ++ Marked.text m }]) (inked ++ Marked.ink m) := by
  obtain ⟨front, share, rfl, hfront, hs⟩ := h.exists_last
  rw [List.append_assoc]
  exact hfront.concat (hs.append hm)

/-- The last sentence has the last character. -/
theorem due_last {c : Char} {url : Text} (h : Bear (ss ++ [s]) (inked ++ [(c, [])])) :
    Bear (ss ++ [{ s with links := s.links ++ [url] }]) (inked ++ [(c, [url])]) := by
  obtain ⟨front, share, heq, hfront, hs⟩ := h.exists_last
  obtain hnil | ⟨share, x, rfl⟩ := List.eq_nil_or_concat' share
  · exact absurd hnil hs.nonempty
  · rw [← List.append_assoc] at heq
    obtain ⟨rfl, hx⟩ := List.append_inj' heq rfl
    obtain rfl := List.singleton_inj.mp hx
    rw [List.append_assoc]
    exact hfront.concat hs.due

theorem exists_deals {m : DueText} (h : Bear ss (Marked.ink m)) :
    ∃ shares, Deals (ss.map (·.content)) m shares ∧ List.Forall₂ Sentence.Bears ss shares := by
  obtain ⟨shares, heq, hshares⟩ := h
  refine ⟨shares, ⟨heq.symm, ?_⟩, hshares⟩
  exact List.forall₂_map_left_iff.mpr (hshares.imp fun _ _ h => h.text_eq)

end Bear

/-- The characters at which something is due. -/
def dueMarks (m : DueText) : Marked Bool := Marked.mapMarks (fun urls => decide (urls ≠ [])) m

section

variable {ss : List Sentence} {s : Sentence} {m : DueText}

/-- Ink at which something is due is in some sentence. -/
theorem exists_holdsMark {c : Char} {urls : List Text} (h : Bear ss (Marked.ink m))
    (hc : (c, urls) ∈ m) (hink : isBlank c = false) (hdue : urls ≠ []) :
    ∃ s, HoldsMark ss (dueMarks m) s := by
  obtain ⟨shares, hdeals, hbears⟩ := h.exists_deals
  have hmem : (c, urls) ∈ shares.flatten := by
    rw [hdeals.flatten_eq]
    exact List.mem_filter.mpr ⟨hc, by simp [hink]⟩
  obtain ⟨share, hshare, hmem⟩ := List.mem_flatten.mp hmem
  rw [← List.map_snd_zip hbears.length_eq.ge] at hshare
  obtain ⟨⟨s, share⟩, hzip, rfl⟩ := List.mem_map.mp hshare
  refine ⟨s, _, dueMarks share, hdeals.mapMarks _, ?_, (c, true), ?_, rfl⟩
  · rw [List.zip_map_right]
    exact List.mem_map.mpr ⟨_, hzip, rfl⟩
  · exact List.mem_map.mpr ⟨_, hmem, by simp [hdue]⟩

/-- A sentence that holds ink at which something is due lists what is due there. -/
theorem exists_due_of_holdsMark (h : Bear ss (Marked.ink m)) (hs : HoldsMark ss (dueMarks m) s) :
    ∃ x ∈ m, x.2 ≠ [] ∧ ∀ url ∈ x.2, url ∈ s.links := by
  obtain ⟨shares, hdeals, hbears⟩ := h.exists_deals
  obtain ⟨shares', share', hdeals', hmarked, x, hx, htrue⟩ := hs
  obtain rfl := hdeals'.unique (hdeals.mapMarks _)
  rw [List.zip_map_right] at hmarked
  obtain ⟨⟨s', share⟩, hzip, heq⟩ := List.mem_map.mp hmarked
  obtain ⟨rfl, rfl⟩ := Prod.ext_iff.mp heq
  obtain ⟨y, hy, rfl⟩ := List.mem_map.mp hx
  have hshare : share ∈ shares := (List.of_mem_zip hzip).2
  have hbear : s'.Bears share := (List.forall₂_iff_zip.mp hbears).2 hzip
  exact ⟨y, hdeals.mem_of_mem_share hshare hy, by simpa using htrue, hbear.lists y hy⟩

end

/-! ## Taking in spans -/

namespace Session

/-- The finished sentences and the unfinished one. -/
def all (s : Session) : List Sentence := s.finished ++ s.unfinished.toList

/-- The last of all sentences is the receiver. -/
def Receives (s : Session) : Receiver → Prop
  | .nobody => False
  | .unfinished => s.unfinished ≠ none
  | .lastFinished => s.unfinished = none ∧ s.finished ≠ []

/-- What is due in the text that has been pushed is borne. -/
structure Pays (s : Session) (past : DueText) : Prop where
  bear : Bear s.all (Marked.ink past)
  settled : s.justClosed = true → s.Receives .lastFinished

variable {s s' : Session} {past m : DueText} {n : ℕ} {T : Terminators}

theorem bear_of_merge_false (h : Bear s.all (Marked.ink past))
    (hs : s.merge (Marked.text m) n = (s', false)) :
    s' = s ∧ Marked.ink m = [] ∧ Bear s.all (Marked.ink (past ++ m)) := by
  obtain ⟨rfl, hcase⟩ := merge_eq_false hs
  have hm : Marked.ink m = [] := by
    rcases hcase with hnil | ⟨-, hblank⟩
    · rw [Marked.text_eq_nil.mp hnil, Marked.ink_nil]
    · exact Marked.ink_eq_nil.mpr (Marked.blank_iff_text.mpr hblank)
  rw [Marked.ink_append, hm, List.append_nil]
  exact ⟨rfl, rfl, h⟩

theorem bear_of_merge_true (h : Bear s.all (Marked.ink past)) (hm : Free m)
    (hs : s.merge (Marked.text m) n = (s', true)) :
    Bear s'.all (Marked.ink (past ++ m)) ∧ s'.Receives .unfinished := by
  unfold merge at hs
  cases hu : s.unfinished with
  | some u =>
    simp only [hu] at hs
    split at hs
    · simp at hs
    · obtain rfl := congrArg Prod.fst hs
      rw [all, hu] at h
      rw [Marked.ink_append]
      exact ⟨h.append_last hm, by simp [Receives]⟩
  | none =>
    simp only [hu] at hs
    split at hs
    · simp at hs
    · rename_i hne
      obtain rfl := congrArg Prod.fst hs
      obtain ⟨gap, x, rest, hsplit, -, hx, hbody⟩ :=
        Marked.exists_trimStart (m := m) (by simpa using hne)
      have hnew : Sentence.Bears { content := Text.trimStart (Marked.text m), line := n }
          (Marked.ink m) := by
        refine ⟨?_, by simp, fun y hy url hurl => ?_⟩
        · simp [hsplit, Marked.ink, hx]
        · simp [hm.ink y hy] at hurl
      rw [all, hu] at h
      rw [Marked.ink_append]
      exact ⟨Bear.concat (by simpa using h) hnew, by simp [Receives]⟩

/-- Closing trims the last sentence, which has ink of its own. -/
theorem bear_close {inked : DueText} (h : Bear s.all inked) (hs : s.Receives .unfinished) :
    Bear s.close.all inked ∧ s.close.Receives .lastFinished := by
  obtain ⟨u, hu⟩ := Option.ne_none_iff_exists'.mp hs
  rw [all, hu, Option.toList_some] at h
  obtain ⟨front, share, rfl, hfront, hshare⟩ := h.exists_last
  have hbody : (Text.trimEnd u.content).isEmpty = false := by
    rw [List.isEmpty_eq_false_iff]
    intro hnil
    exact hshare.ink_ne_nil (by rw [← Text.ink_trimEnd, hnil, Text.ink_nil])
  have htrim : Sentence.Bears { u with content := Text.trimEnd u.content } share :=
    hshare.congr (Text.ink_trimEnd _) fun _ hurl => hurl
  have hclose := hfront.concat htrim
  constructor
  · simpa [close, hu, hbody, all] using hclose
  · simp [close, hu, hbody, Receives]

theorem bear_closeSegments {r : Receiver} {segments : List Text} (h : Bear s.all (Marked.ink past))
    (hr : r ≠ .nobody → r = .lastFinished ∧ s.Receives .lastFinished) (hm : Free m)
    (htext : Marked.text m = segments.flatten) :
    let out := closeSegments n s r segments
    Bear out.1.all (Marked.ink (past ++ m)) ∧
      (out.2 ≠ .nobody → out.2 = .lastFinished ∧ out.1.Receives .lastFinished) ∧
      (r ≠ .nobody ∨ Marked.ink m ≠ [] → out.2 ≠ .nobody) := by
  induction segments generalizing s r past m with
  | nil =>
    obtain rfl : m = [] := by simpa using htext
    rw [List.append_nil]
    exact ⟨h, hr, by simp [closeSegments]⟩
  | cons a segments ih =>
    obtain ⟨m₁, m₂, rfl, rfl, h₂⟩ := Marked.exists_append_of_text htext
    rw [← List.append_assoc, closeSegments]
    cases hmerge : s.merge (Marked.text m₁) n with
    | mk s' added =>
      cases added with
      | true =>
        obtain ⟨hopened, hopen⟩ := bear_of_merge_true h hm.left hmerge
        obtain ⟨hclosed, hlast⟩ := bear_close hopened hopen
        obtain ⟨hbear, hwho, hsome⟩ := ih hclosed (fun _ => ⟨rfl, hlast⟩) hm.right h₂
        exact ⟨hbear, hwho, fun _ => hsome (.inl (by decide))⟩
      | false =>
        obtain ⟨rfl, hblank, hsame⟩ := bear_of_merge_false h hmerge
        obtain ⟨hbear, hwho, hsome⟩ := ih hsame hr hm.right h₂
        have hink : Marked.ink (m₁ ++ m₂) = Marked.ink m₂ := by
          rw [Marked.ink_append, hblank, List.nil_append]
        exact ⟨hbear, hwho, fun h => hsome (hink ▸ h)⟩

/-- A link goes to the last of all sentences. -/
theorem exists_all_attach {who : Receiver} (hwho : s.Receives who) (url : Text) :
    ∃ front f, s.all = front ++ [f] ∧
      (Session.attach (some url) who s).all = front ++ [{ f with links := f.links ++ [url] }] := by
  cases who with
  | nobody => exact absurd hwho id
  | unfinished =>
    obtain ⟨u, hu⟩ := Option.ne_none_iff_exists'.mp hwho
    exact ⟨s.finished, u, by simp [all, hu], by simp [all, attach, hu]⟩
  | lastFinished =>
    obtain ⟨hnone, hne⟩ := hwho
    obtain hnil | ⟨front, f, hfinished⟩ := List.eq_nil_or_concat' s.finished
    · exact absurd hnil hne
    · exact ⟨front, f, by simp [all, hnone, hfinished],
        by simp [all, attach, hnone, hfinished, modifyLast_append]⟩

theorem receives_attach {who who' : Receiver} (link : Option Text) (h : s.Receives who') :
    (Session.attach link who s).Receives who' := by
  cases link with
  | none => exact h
  | some url =>
    cases who <;> cases who' <;> simp_all [Receives, attach, modifyLast]

theorem justClosed_attach (link : Option Text) (who : Receiver) (s : Session) :
    (Session.attach link who s).justClosed = s.justClosed := by
  cases link <;> cases who <;> rfl

/-- A link takes nothing away. -/
theorem Pays.attach {who : Receiver} (h : s.Pays past) (hwho : who ≠ .nobody → s.Receives who)
    (link : Option Text) : (Session.attach link who s).Pays past := by
  refine ⟨?_, fun hc => receives_attach link (h.settled (justClosed_attach link who s ▸ hc))⟩
  cases link with
  | none => exact h.bear
  | some url =>
    by_cases hnobody : who = .nobody
    · subst hnobody
      exact h.bear
    · obtain ⟨front, f, hall, hattach⟩ := exists_all_attach (hwho hnobody) url
      have hbear := h.bear
      rw [hall] at hbear
      rw [hattach]
      exact hbear.replace_last fun share hs => hs.congr rfl (by simp +contextual)

/-- The receiver of the last character lists the url that is due there. -/
theorem Pays.attach_due {c : Char} {url : Text} {who : Receiver} (h : s.Pays (past ++ [(c, [])]))
    (hc : isBlank c = false) (hwho : s.Receives who) :
    (Session.attach (some url) who s).Pays (past ++ [(c, [url])]) := by
  have hink : ∀ due : List Text, Marked.ink [(c, due)] = [(c, due)] := fun due => by
    simp [Marked.ink, hc]
  obtain ⟨front, f, hall, hattach⟩ := exists_all_attach hwho url
  have hbear := h.bear
  rw [hall, Marked.ink_append, hink] at hbear
  refine ⟨?_, fun hc => receives_attach _ (h.settled (justClosed_attach _ who s ▸ hc))⟩
  rw [hattach, Marked.ink_append, hink]
  exact hbear.due_last

/-- Taking in the text of a span ends with its link, which goes to the receiver of the last piece;
there is one when the text ends in ink. -/
theorem Pays.exists_attach (h : s.Pays past) (hm : Free m) (link : Option Text) :
    ∃ s' who, s.pushBody T n (Marked.text m) link = Session.attach link who s' ∧
      s'.Pays (past ++ m) ∧ (who ≠ .nobody → s'.Receives who) ∧
      ((∃ x ∈ m.getLast?, isBlank x.1 = false) → who ≠ .nobody) := by
  have hspec := Terminators.segments_spec T (Marked.text m)
  rw [Session.pushBody]
  generalize T.segments (Marked.text m) = parts at hspec ⊢
  obtain ⟨segments, rest⟩ := parts
  obtain ⟨happ, -, -⟩ := hspec
  obtain ⟨m₁, m₂, rfl, h₁, rfl⟩ := Marked.exists_append_of_text happ.symm
  have hclosed := bear_closeSegments (r := .nobody) h.bear (by simp) hm.left h₁ (n := n)
  dsimp only at hclosed ⊢
  generalize closeSegments n s .nobody segments = closed at hclosed ⊢
  obtain ⟨s', who⟩ := closed
  obtain ⟨hbear, hwho, hsome⟩ := hclosed
  dsimp only at hbear hwho hsome ⊢
  rw [← List.append_assoc]
  cases hmerge : s'.merge (Marked.text m₂) n with
  | mk s'' added =>
    cases added with
    | false =>
      obtain ⟨rfl, hblank, hbear⟩ := bear_of_merge_false hbear hmerge
      refine ⟨_, who, rfl, ⟨hbear, fun hc => ?_⟩, fun hw => ?_, fun hends => ?_⟩
      · rw [Bool.and_eq_true, beq_iff_eq] at hc
        exact (hwho (by rw [hc.2]; decide)).2
      · obtain ⟨rfl, hlast⟩ := hwho hw
        exact hlast
      · -- the ink at the end is in a segment, for the rest has none
        obtain ⟨x, hx, hink⟩ := hends
        refine hsome (.inr fun hnil => ?_)
        have hmem : x ∈ Marked.ink (m₁ ++ m₂) :=
          List.mem_filter.mpr ⟨List.mem_of_mem_getLast? hx, by simpa using hink⟩
        simp [hnil, hblank] at hmem
    | true =>
      obtain ⟨hbear, hopen⟩ := bear_of_merge_true hbear hm.right hmerge
      dsimp only
      split
      · obtain ⟨hbear, hlast⟩ := bear_close hbear hopen
        exact ⟨_, _, rfl, ⟨hbear, fun _ => hlast⟩, fun _ => hlast, fun _ => by decide⟩
      · refine ⟨_, _, rfl, ⟨hbear, fun hc => ?_⟩, fun _ => hopen, fun _ => by decide⟩
        rw [Bool.and_eq_true, List.isEmpty_iff] at hc
        rw [hc.1] at hmerge
        cases hu : s'.unfinished <;> simp [merge, hu, Text.trimStart] at hmerge

theorem Pays.pushBody {text : Text} {link : Option Text} (h : s.Pays past) (hm : Due text link m) :
    (s.pushBody T n text link).Pays (past ++ m) := by
  cases hm with
  | free free =>
    obtain ⟨s', who, hbody, hpays, hwho, -⟩ := h.exists_attach free link (T := T) (n := n)
    rw [hbody]
    exact hpays.attach hwho link
  | @last init c url free ink plain =>
    have hfree : Free (init ++ [(c, [])]) := free.append (by simp [Free])
    obtain ⟨s', who, hbody, hpays, hwho, hsome⟩ :=
      h.exists_attach hfree (some url) (T := T) (n := n)
    have hreceives : s'.Receives who := hwho (hsome ⟨(c, []), by simp, ink⟩)
    rw [Marked.text_append, Marked.text_cons, Marked.text_nil] at hbody
    rw [hbody]
    rw [← List.append_assoc] at hpays ⊢
    exact hpays.attach_due ink hreceives

/-- Closers right behind a sentence end go to the sentence that has been finished. -/
theorem Pays.append_closers (h : s.Pays past) (hc : s.justClosed = true) (hm : Free m) :
    let add := modifyLast fun f => { f with content := f.content ++ Marked.text m }
    Pays { s with finished := add s.finished } (past ++ m) := by
  obtain ⟨hnone, hne⟩ := h.settled hc
  obtain hnil | ⟨front, f, hfinished⟩ := List.eq_nil_or_concat' s.finished
  · exact absurd hnil hne
  · have hbear := h.bear
    rw [all, hnone, Option.toList_none, List.append_nil, hfinished] at hbear
    refine ⟨?_, fun _ => ⟨hnone, by simp [hfinished, modifyLast_append]⟩⟩
    rw [Marked.ink_append]
    simpa [all, hnone, hfinished, modifyLast_append] using hbear.append_last hm

theorem Pays.push {span : Span} (h : s.Pays past) (hm : Due span.text span.link m) :
    (Session.push T s span).Pays (past ++ m) := by
  unfold Session.push
  split
  · rename_i hempty
    rw [hm.eq_nil (List.isEmpty_iff.mp hempty), List.append_nil]
    exact h
  · split
    · rename_i hc
      obtain ⟨m₁, m₂, rfl, h₁, hfree, hrest⟩ := hm.exists_dropWhile
      have hpays := h.append_closers hc hfree
      rw [← List.append_assoc, ← h₁]
      dsimp only
      split
      · rename_i hempty
        rw [hrest.eq_nil (List.isEmpty_iff.mp hempty), List.append_nil]
        exact hpays
      · exact hpays.pushBody hrest
    · exact h.pushBody hm

theorem pays_foldl {spans : List Span} {ms : List DueText}
    (hms : List.Forall₂ (fun span m => Due span.text span.link m) spans ms) (h : s.Pays past) :
    (spans.foldl (Session.push T) s).Pays (past ++ ms.flatten) := by
  induction hms generalizing s past with
  | nil => simpa using h
  | cons hm _ ih =>
    rw [List.flatten_cons, ← List.append_assoc]
    exact ih (h.push hm)

end Session

/-- The sentences that are extracted from spans bear what is due in the spans. -/
theorem bear_extract (T : Terminators) {spans : List Span} {ms : List DueText}
    (hms : List.Forall₂ (fun span m => Due span.text span.link m) spans ms) :
    Bear (extract T spans) (Marked.ink ms.flatten) := by
  have hstart : Session.Pays {} [] := ⟨.nil, by simp⟩
  have hbear := (Session.pays_foldl (T := T) hms hstart).bear
  rw [extract, Session.flush]
  generalize spans.foldl (Session.push T) {} = s at hbear ⊢
  cases hu : s.unfinished with
  | none =>
    rw [Session.all, hu, Option.toList_none, List.append_nil] at hbear
    rwa [Session.close, hu]
  | some u =>
    obtain ⟨hclose, hnone, -⟩ := Session.bear_close hbear (by simp [Session.Receives, hu])
    rwa [Session.all, hnone, Option.toList_none, List.append_nil] at hclose

/-- Sentences are extracted from spans just when there is ink in them. -/
theorem extract_eq_nil_iff (T : Terminators) (spans : List Span) :
    extract T spans = [] ↔ Text.ink (spans.flatMap (·.text)) = [] := by
  let free (span : Span) : DueText := Marked.const [] span.text
  have hfree : List.Forall₂ (fun span m => Due span.text span.link m) spans (spans.map free) := by
    rw [List.forall₂_map_right_iff, List.forall₂_same]
    intro span _
    have hdue : Due (Marked.text (free span)) span.link (free span) := .free (.const span.text)
    rwa [Marked.text_const] at hdue
  have htext : Marked.text (spans.map free).flatten = spans.flatMap (·.text) := by
    rw [Marked.text, List.map_flatten, List.map_map, List.flatMap]
    exact congrArg List.flatten (List.map_congr_left fun span _ => Marked.text_const [] span.text)
  obtain ⟨shares, hshares, hbear⟩ := bear_extract T hfree
  rw [← htext, ← Marked.text_ink, Marked.text_eq_nil, hshares]
  constructor
  · intro hnil
    rw [hnil, List.forall₂_nil_left_iff] at hbear
    rw [hbear, List.flatten_nil]
  · intro hnil
    generalize extract T spans = ss at hbear
    cases hbear with
    | nil => rfl
    | cons hx _ => exact absurd (List.append_eq_nil_iff.mp hnil).1 hx.nonempty

end ProseLint
