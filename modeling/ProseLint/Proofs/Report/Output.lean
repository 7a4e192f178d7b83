import ProseLint.Proofs.Engine.Calls
import ProseLint.Report.Writer

/-!
# What a writer writes

A report is a header, the entries with a gap between neighbours, and a footer. A writer that is
told to report some findings writes this text. If its sink takes no more than a number of bytes, the
sink gets the beginning of the text: as long as all bytes have found room, the writer counts its
entries right and goes on as it would without a limit, and from then on nothing can be added.
-/
namespace ProseLint.Report

@[simp] theorem utf8_nil : utf8 [] = [] := rfl

@[simp] theorem utf8_append (s t : Text) : utf8 (s ++ t) = utf8 s ++ utf8 t := by simp [utf8]

theorem utf8_ne_nil {t : Text} (h : t ≠ []) : utf8 t ≠ [] := by
  cases t with
  | nil => exact absurd rfl h
  | cons c t =>
    intro hnil
    have hlen := congrArg List.length hnil
    have hpos := c.utf8Size_pos
    simp only [utf8, List.flatMap_cons, List.length_append, String.length_utf8EncodeChar,
      List.length_nil] at hlen
    omega

theorem utf8Decode?_utf8 (t : Text) : (utf8 t).toByteArray.utf8Decode? = some t.toArray :=
  List.utf8Decode?_utf8Encode

/-- No two texts are written in the same bytes. -/
theorem utf8_injective {s t : Text} (h : utf8 s = utf8 t) : s = t := by
  have hdecoded := congrArg (fun bytes => bytes.toByteArray.utf8Decode?) h
  simp only [utf8Decode?_utf8, Option.some.injEq] at hdecoded
  exact congrArg Array.toList hdecoded

namespace Sink

/-- What a sink with a limit keeps of the bytes that are written to it. -/
def kept : Option ℕ → List UInt8 → List UInt8
  | none, bytes => bytes
  | some limit, bytes => bytes.take limit

/-- A sink with this limit has room for so many bytes. -/
def Fits (limit : Option ℕ) (n : ℕ) : Prop := ∀ k ∈ limit, n ≤ k

instance (limit : Option ℕ) (n : ℕ) : Decidable (Fits limit n) :=
  inferInstanceAs (Decidable (∀ k ∈ limit, n ≤ k))

variable {limit : Option ℕ} {s : Sink} {past bytes : List UInt8} {m n : ℕ}

@[simp] theorem fits_none (n : ℕ) : Fits none n := by simp [Fits]

@[simp] theorem fits_some (k n : ℕ) : Fits (some k) n ↔ n ≤ k := by simp [Fits]

theorem Fits.mono (h : Fits limit n) (hm : m ≤ n) : Fits limit m := fun k hk =>
  hm.trans (h k hk)

/-- A full sink keeps nothing more. -/
theorem kept_append_of_not_fits (h : ¬ Fits limit past.length) (bytes : List UInt8) :
    kept limit (past ++ bytes) = kept limit past := by
  cases limit with
  | none => exact absurd (fits_none _) h
  | some k =>
    rw [fits_some] at h
    exact List.take_append_of_le_length (by omega)

theorem writeBytes_kept (h : s.written = kept s.limit past) (bytes : List UInt8) :
    (s.writeBytes bytes).2 = { s with written := kept s.limit (past ++ bytes) } := by
  unfold writeBytes
  cases hlimit : s.limit with
  | none =>
    rw [hlimit] at h
    simp [h, kept]
  | some k =>
    rw [hlimit] at h
    have hroom : k - (past.take k).length = k - past.length := by
      rw [List.length_take]
      omega
    simp only [h, kept, hroom, List.take_append]

/-- A write of some bytes succeeds when they find room. -/
theorem writeBytes_eq_ok_iff (h : s.written = kept s.limit past) (hbytes : bytes ≠ []) :
    (s.writeBytes bytes).1 = .ok () ↔ Fits s.limit (past ++ bytes).length := by
  have hpos : 0 < bytes.length := List.length_pos_of_ne_nil hbytes
  unfold writeBytes
  cases hlimit : s.limit with
  | none => simp
  | some k =>
    rw [hlimit] at h
    have hiff : bytes.length ≤ k - (past.take k).length ↔ past.length + bytes.length ≤ k := by
      rw [List.length_take]
      omega
    simp only [h, kept, fits_some, List.length_append, hiff]
    split <;> simp_all

end Sink

/-- What parts an entry from the next. -/
def between (format : Format) : Text := Writer.lineOf (some (format.separator?.getD []))

/-- The header and the entries with their gaps. -/
def body (format : Format) (fs : List Finding) : Text :=
  Writer.lineOf format.header? ++ Text.joinWith (between format) (fs.map (entry format))

/-- What stands behind the entries. -/
def ending (format : Format) (fs : List Finding) : Text :=
  (if fs = [] then [] else ['\n']) ++ Writer.lineOf format.footer?

/-- What stands before the next entry when some have been written. -/
def lead (format : Format) (past : List Finding) : Text :=
  body format past ++ if past = [] then [] else between format

theorem joinWith_concat (sep : Text) (ts : List Text) (t : Text) :
    Text.joinWith sep (ts ++ [t]) = Text.joinWith sep ts ++ (if ts = [] then [] else sep) ++ t := by
  induction ts with
  | nil => rfl
  | cons u ts ih =>
    cases ts with
    | nil => simp [Text.joinWith]
    | cons v ts =>
      rw [List.cons_append, List.cons_append, Text.joinWith, ← List.cons_append, ih]
      simp [Text.joinWith]

theorem body_concat (format : Format) (fs : List Finding) (f : Finding) :
    body format (fs ++ [f]) = lead format fs ++ entry format f := by
  simp [body, lead, joinWith_concat]

theorem entry_ne_nil (format : Format) (f : Finding) : entry format f ≠ [] := by
  cases format with
  | plain =>
    have hclose : ")]".toList ≠ [] := by decide
    exact List.append_ne_nil_of_left_ne_nil (List.append_ne_nil_of_right_ne_nil _ hclose) _
  | xml =>
    have hclose : "</error>".toList ≠ [] := by decide
    exact List.append_ne_nil_of_right_ne_nil _ hclose
  | json => simp [entry, jsonEntry, Json.object]

/-- The number of bytes of a report up to the end of an entry, counted from 0. -/
def entryEnd (format : Format) (fs : List Finding) (i : ℕ) : ℕ :=
  (utf8 (body format (fs.take (i + 1)))).length

theorem entryEnd_append {format : Format} {fs : List Finding} {i : ℕ} (hi : i < fs.length)
    (gs : List Finding) : entryEnd format (fs ++ gs) i = entryEnd format fs i := by
  rw [entryEnd, List.take_append_of_le_length (by omega), entryEnd]

theorem entryEnd_length (format : Format) (fs : List Finding) (f : Finding) :
    entryEnd format (fs ++ [f]) fs.length = (utf8 (body format (fs ++ [f]))).length := by
  rw [entryEnd, List.take_of_length_le (by simp)]

/-- Further entries are written behind those that are there. -/
theorem exists_body_append (format : Format) (fs gs : List Finding) :
    ∃ after, body format (fs ++ gs) = body format fs ++ after := by
  induction gs using List.reverseRecOn with
  | nil => exact ⟨[], by simp⟩
  | append_singleton gs g ih =>
    obtain ⟨after, hafter⟩ := ih
    rw [← List.append_assoc, body_concat, lead, hafter, List.append_assoc, List.append_assoc]
    exact ⟨_, rfl⟩

theorem entryEnd_le (format : Format) (fs : List Finding) (i : ℕ) :
    entryEnd format fs i ≤ (utf8 (body format fs)).length := by
  obtain ⟨after, hafter⟩ := exists_body_append format (fs.take (i + 1)) (fs.drop (i + 1))
  rw [List.take_append_drop] at hafter
  rw [hafter, utf8_append, List.length_append, entryEnd]
  omega

namespace Writer

variable {format : Format} {limit : Option ℕ} {w : Writer} {fs : List Finding}

open Sink (kept Fits)

theorem put_kept {past : Text} (h : w.sink.written = kept w.sink.limit (utf8 past)) (t : Text) :
    (w.put t).2 = { w with
      sink := { w.sink with written := kept w.sink.limit (utf8 (past ++ t)) } } := by
  rw [utf8_append, put, Sink.write]
  dsimp only
  rw [Sink.writeBytes_kept h]

theorem put_eq_ok_iff {past t : Text} (h : w.sink.written = kept w.sink.limit (utf8 past))
    (ht : t ≠ []) :
    (w.put t).1 = .ok () ↔ Fits w.sink.limit (utf8 (past ++ t)).length := by
  rw [utf8_append]
  exact Sink.writeBytes_eq_ok_iff h (utf8_ne_nil ht)

/-- No sink with this limit tells one text from the other: it keeps the same of both, and has room
for both or for neither. -/
structure Alike (limit : Option ℕ) (t u : Text) : Prop where
  kept_eq : kept limit (utf8 t) = kept limit (utf8 u)
  fits_iff : Fits limit (utf8 t).length ↔ Fits limit (utf8 u).length

theorem Alike.refl (limit : Option ℕ) (t : Text) : Alike limit t t := ⟨rfl, Iff.rfl⟩

/-- Where there is no room for a text, it does not matter what comes behind it. -/
theorem alike_of_not_fits {past : Text} (h : ¬ Fits limit (utf8 past).length) (t u : Text) :
    Alike limit (past ++ t) (past ++ u) := by
  have hnot : ∀ t, ¬ Fits limit (utf8 (past ++ t)).length := by
    intro t ht
    refine h (ht.mono ?_)
    simp
  refine ⟨?_, iff_of_false (hnot t) (hnot u)⟩
  rw [utf8_append, utf8_append, Sink.kept_append_of_not_fits h, Sink.kept_append_of_not_fits h]

/-- The writer has been told of some findings: its sink keeps what it can of their entries, and it
has counted the entries that are there as a whole. -/
structure Wrote (format : Format) (limit : Option ℕ) (fs : List Finding) (w : Writer) : Prop where
  limit_eq : w.sink.limit = limit
  written_eq : w.sink.written = kept limit (utf8 (body format fs))
  reported_eq : w.reported = (List.range fs.length).countP fun i =>
    Fits limit (entryEnd format fs i)

theorem wrote_begin (format : Format) (limit : Option ℕ) (n : ℕ) :
    Wrote format limit [] (begin format { sink := { limit := limit }, reported := n }).2 := by
  have hnil : ([] : List UInt8) = kept limit (utf8 []) := by cases limit <;> simp [kept]
  have hput := put_kept (w := { sink := { limit := limit }, reported := 0 }) hnil
    (lineOf format.header?)
  rw [begin, hput]
  constructor <;> simp [body, Text.joinWith]

/-- While there is room for everything, no entry is missed. -/
theorem Wrote.reported_of_fits (h : Wrote format limit fs w)
    (hfits : Fits limit (utf8 (body format fs)).length) : w.reported = fs.length := by
  rw [h.reported_eq, List.countP_eq_length.mpr, List.length_range]
  intro i _
  exact decide_eq_true (hfits.mono (entryEnd_le format fs i))

/-- The writer attempts the right entry, or it does not matter what it attempts. -/
theorem Wrote.alike_report (h : Wrote format limit fs w) (f : Finding) :
    Alike limit (body format fs ++ (w.gap format ++ entry format f)) (body format (fs ++ [f])) := by
  rw [body_concat, lead, List.append_assoc]
  by_cases hfits : Fits limit (utf8 (body format fs)).length
  · have hgap : w.gap format = if fs = [] then [] else between format := by
      simp [gap, h.reported_of_fits hfits, between]
    rw [hgap]
    exact .refl _ _
  · exact alike_of_not_fits hfits _ _

theorem Wrote.alike_finish (h : Wrote format limit fs w) :
    Alike limit
      (body format fs ++ ((if w.reported = 0 then [] else ['\n']) ++ lineOf format.footer?))
      (body format fs ++ ending format fs) := by
  by_cases hfits : Fits limit (utf8 (body format fs)).length
  · have hend : (if w.reported = 0 then [] else ['\n']) ++ lineOf format.footer? =
        ending format fs := by
      simp [ending, h.reported_of_fits hfits]
    rw [hend]
    exact .refl _ _
  · exact alike_of_not_fits hfits _ _

/-- The count behind one more entry. -/
theorem countP_entryEnd_concat (format : Format) (limit : Option ℕ) (fs : List Finding)
    (f : Finding) :
    ((List.range (fs ++ [f]).length).countP fun i => Fits limit (entryEnd format (fs ++ [f]) i)) =
      ((List.range fs.length).countP fun i => Fits limit (entryEnd format fs i)) +
        if Fits limit (utf8 (body format (fs ++ [f]))).length then 1 else 0 := by
  have hpast : ((List.range fs.length).countP fun i =>
      Fits limit (entryEnd format (fs ++ [f]) i)) =
        (List.range fs.length).countP fun i => Fits limit (entryEnd format fs i) := by
    apply List.countP_congr
    intro i hi
    rw [entryEnd_append (List.mem_range.mp hi)]
  rw [List.length_append, List.length_singleton, List.range_succ, List.countP_append, hpast,
    List.countP_singleton, entryEnd_length]
  simp

theorem Wrote.report (h : Wrote format limit fs w) (f : Finding) :
    Wrote format limit (fs ++ [f]) (report format f w).2 := by
  have halike := h.alike_report f
  obtain ⟨rfl, hwritten, hreported⟩ := h
  have hput := put_kept hwritten (w.gap format ++ entry format f)
  have hok := put_eq_ok_iff hwritten (t := w.gap format ++ entry format f)
    (by simp [entry_ne_nil])
  rw [halike.kept_eq] at hput
  rw [halike.fits_iff] at hok
  unfold Writer.report
  cases hresult : w.put (w.gap format ++ entry format f) with
  | mk answer w' =>
    rw [hresult] at hput hok
    dsimp only at hput hok
    subst hput
    cases answer with
    | ok =>
      refine ⟨rfl, rfl, ?_⟩
      rw [countP_entryEnd_concat, if_pos (hok.mp rfl), ← hreported]
    | error reason =>
      have hfull : ¬ Fits w.sink.limit (utf8 (body format (fs ++ [f]))).length := fun hfits => by
        simpa using hok.mpr hfits
      refine ⟨rfl, rfl, ?_⟩
      rw [countP_entryEnd_concat, if_neg hfull, ← hreported]
      rfl

/-- What holds behind a begin and some reports, whatever they have answered. -/
theorem wrote_reports (format : Format) (limit : Option ℕ) (n : ℕ) (fs : List Finding) :
    Wrote format limit fs ((distributor format).after (.begin :: fs.map .report)
      { sink := { limit := limit }, reported := n }) := by
  induction fs using List.reverseRecOn with
  | nil => exact wrote_begin format limit n
  | append_singleton fs f ih =>
    rw [List.map_append, ← List.cons_append, Distributor.after_append]
    exact ih.report f

theorem Wrote.finish (h : Wrote format limit fs w) :
    (finish format w).2.sink.written = kept limit (utf8 (body format fs ++ ending format fs)) := by
  have halike := h.alike_finish
  obtain ⟨rfl, hwritten, _⟩ := h
  rw [Writer.finish, put_kept hwritten]
  exact halike.kept_eq

/-- A whole session writes the report, as far as the sink takes it. -/
theorem written_session (format : Format) (limit : Option ℕ) (n : ℕ) (fs : List Finding) :
    ((distributor format).after (Call.session fs)
      { sink := { limit := limit }, reported := n }).sink.written =
        kept limit (utf8 (body format fs ++ ending format fs)) := by
  rw [Call.session, Distributor.after_append]
  exact (wrote_reports format limit n fs).finish

/-- An entry stands behind its lead, whatever comes behind it. -/
theorem exists_body_eq {i : ℕ} {f : Finding} (hi : fs[i]? = some f) :
    entryEnd format fs i = (utf8 (lead format (fs.take i)) ++ utf8 (entry format f)).length ∧
      ∃ after, utf8 (body format fs) =
        utf8 (lead format (fs.take i)) ++ utf8 (entry format f) ++ after := by
  obtain ⟨hlt, rfl⟩ := List.getElem?_eq_some_iff.mp hi
  have hentry : body format (fs.take (i + 1)) =
      lead format (fs.take i) ++ entry format fs[i] := by
    rw [← body_concat, List.take_concat_get']
  refine ⟨by rw [entryEnd, hentry, utf8_append], ?_⟩
  obtain ⟨after, hafter⟩ := exists_body_append format (fs.take (i + 1)) (fs.drop (i + 1))
  rw [List.take_append_drop] at hafter
  exact ⟨utf8 after, by rw [hafter, hentry, utf8_append, utf8_append]⟩

/-- What becomes of a report in a sink that takes a number of bytes and then fails. -/
structure LimitSpec (format : Format) (fs : List Finding) (reports session free : Writer)
    (limit : ℕ) : Prop where
  /-- The sink gets the first bytes of what a sink without a limit gets. -/
  written_eq : session.sink.written = free.sink.written.take limit
  /-- Each entry has its place among all the bytes, and `entryEnd` is where it ends. -/
  entry_place : ∀ i f, fs[i]? = some f →
    entryEnd format fs i = (utf8 (lead format (fs.take i)) ++ utf8 (entry format f)).length ∧
      ∃ after, free.sink.written =
        utf8 (lead format (fs.take i)) ++ utf8 (entry format f) ++ after
  /-- The entries that end within the bytes of the sink have been counted. -/
  reported_eq : reports.reported =
    (List.range fs.length).countP fun i => entryEnd format fs i ≤ session.sink.written.length

/-- A sink with a limit gets the beginning of the report, wherever the limit falls, and the writer
has counted the entries that are there as a whole, though it goes on behind failed calls. -/
theorem limited_report (format : Format) (fs : List Finding) (limit n : ℕ) :
    let start : Writer := { sink := { limit := some limit }, reported := n }
    LimitSpec format fs ((distributor format).after (.begin :: fs.map .report) start)
      ((distributor format).after (Call.session fs) start)
      ((distributor format).after (Call.session fs) { sink := {}, reported := n }) limit := by
  have hfree := written_session format none n fs
  have hsession := written_session format (some limit) n fs
  simp only [Sink.kept] at hfree hsession
  constructor
  · rw [hfree, hsession]
  · intro i f hi
    obtain ⟨hend, after, hafter⟩ := exists_body_eq hi
    exact ⟨hend, after ++ utf8 (ending format fs), by
      rw [hfree, utf8_append, hafter, List.append_assoc]⟩
  · rw [(wrote_reports format (some limit) n fs).reported_eq, hsession]
    apply List.countP_congr
    intro i _
    have hle := entryEnd_le format fs i
    simp only [Sink.fits_some, decide_eq_true_eq, List.length_take, utf8_append,
      List.length_append, le_min_iff]
    omega

end Writer
end ProseLint.Report
