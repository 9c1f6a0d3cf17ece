import Mathlib
import Sintius.Lib.NumberText
import Sintius.Lib.Regex
import Sintius.Lib.Utf16
import Sintius.Spec.Redaction
import Sintius.Spec.DefinitionOfDone

/-! What an accepted roadmap says of the tests that ran. The line of a test point is read as its
status and the identifiers of its title; the directive behind the title is not read, so a test
that was skipped counts as one that passed. -/

namespace Sintius.DefinitionOfDone

open Js Regex Redaction

section Ids

variable {t u : Text} {before : Option CodeUnit}

theorem word_eq (text : String) :
    word text = inOrder ((ascii text).map fun x y => y == x) := rfl

theorem ascii_TC : ascii "TC-" = [0x54, 0x43, 0x2d] := rfl

/-- The characters of the identifier that a text begins with. -/
def idChars (t : Text) : Text := (t.drop 3).takeWhile isIdUnit

/-- What one round of the pattern takes. -/
def idAt (t : Text) : Option Text :=
  if ascii "TC-" <+: t ∧ idChars t ≠ [] then
    some (ascii "TC-" ++ idChars t ++
      ((t.drop 3).dropWhile isIdUnit).takeWhile isIdSeparator)
  else none

theorem first_idPattern : first idPattern ⟨before, t⟩ = (idAt t).map fun m => ((), m) := by
  unfold idPattern idAt
  by_cases hpre : ascii "TC-" <+: t
  · have hword : (word "TC-").run ⟨before, t⟩ = [((), ascii "TC-")] := by
      rw [word_eq, run_inOrder, if_pos hpre]
    obtain ⟨rest, rfl⟩ := hpre
    have hdrop : (ascii "TC-" ++ rest).drop 3 = rest := by rw [ascii_TC]; rfl
    have hafter : (Cursor.after ⟨before, ascii "TC-" ++ rest⟩ (ascii "TC-")).rest = rest := by
      simp [Cursor.after]
    rw [first_bind_of_run hword]
    simp only [idChars, hdrop, List.prefix_append, true_and]
    by_cases hnone : rest.takeWhile isIdUnit = []
    · rw [first_bind_of_none (by rw [first_many1_unit, hafter, if_pos hnone]),
        if_neg (by simp [hnone])]
      rfl
    · have hchars := first_many1_unit isIdUnit (Cursor.after ⟨before, ascii "TC-" ++ rest⟩
        (ascii "TC-"))
      rw [hafter, if_neg hnone] at hchars
      rw [if_pos hnone, first_bind hchars (first_many_unit isIdSeparator _)]
      have hbehind : rest.drop (rest.takeWhile isIdUnit).length = rest.dropWhile isIdUnit := by
        calc rest.drop (rest.takeWhile isIdUnit).length
            = (rest.takeWhile isIdUnit ++ rest.dropWhile isIdUnit).drop
                (rest.takeWhile isIdUnit).length := by rw [List.takeWhile_append_dropWhile]
          _ = rest.dropWhile isIdUnit := List.drop_left' rfl
      have hrest : (Cursor.after (Cursor.after ⟨before, ascii "TC-" ++ rest⟩ (ascii "TC-"))
          (rest.takeWhile isIdUnit)).rest = rest.dropWhile isIdUnit := by
        rw [Cursor.after, hafter, hbehind]
      simp [hrest]
  · have hword : (word "TC-").run ⟨before, t⟩ = [] := by
      rw [word_eq, run_inOrder, if_neg hpre]
    rw [first_bind_of_none (by rw [first, hword]; rfl), if_neg fun h => hpre h.1]
    rfl

theorem nonEmpty_idPattern : nonEmpty idPattern = idPattern := by
  ext1
  funext c
  refine List.filter_eq_self.mpr fun r hr => ?_
  obtain ⟨s, hs, s', -, rfl⟩ := mem_run_bind.mp hr
  rw [word_eq, run_inOrder] at hs
  split_ifs at hs
  · cases List.mem_singleton.mp hs
    rw [ascii_TC]
    rfl
  · cases hs

/-- The identifiers that a text begins with, as the pattern takes them. -/
def leadingIds : ℕ → Text → Text
  | 0, _ => []
  | n + 1, t =>
    match idAt t with
    | none => []
    | some m => m ++ leadingIds n (t.drop m.length)

theorem first_many_idPattern :
    first (many idPattern) ⟨before, t⟩ = some ((), leadingIds t.length t) := by
  have hupTo : ∀ (n : ℕ) (c : Cursor CodeUnit),
      first (upTo idPattern n) c = some ((), leadingIds n c.rest) := by
    intro n
    induction n with
    | zero => exact fun c => rfl
    | succ n ih =>
      intro c
      rw [first_upTo_succ, first_idPattern, leadingIds]
      cases idAt c.rest with
      | none => rfl
      | some m => simp [ih, Cursor.after]
  have hmany : first (many idPattern) ⟨before, t⟩ =
      first (upTo idPattern t.length) ⟨before, t⟩ := by
    simp only [first, many, nonEmpty_idPattern]
  rw [hmany, hupTo]

/-- What the pattern captures of a title. -/
theorem first_capture_ids : first (capture (many1 idPattern)) ⟨before, t⟩ =
    (idAt t).map fun m => (m ++ leadingIds (t.drop m.length).length (t.drop m.length),
      m ++ leadingIds (t.drop m.length).length (t.drop m.length)) := by
  rw [first_capture, many1]
  cases hid : idAt t with
  | none => rw [first_bind_of_none (by rw [first_idPattern, hid]; rfl)]; rfl
  | some m =>
    have hm : first idPattern ⟨before, t⟩ = some ((), m) := by rw [first_idPattern, hid]; rfl
    rw [first_bind hm (first_many_idPattern)]
    rfl

theorem TEST_ID_iff : TEST_ID t = true ↔
    ∃ id, t = ascii "TC-" ++ id ∧ id ≠ [] ∧ ∀ c ∈ id, isIdUnit c = true := by
  rw [ascii_TC]
  constructor
  · intro h
    unfold TEST_ID at h
    split at h
    · rename_i id
      simp only [Bool.and_eq_true, Bool.not_eq_true', List.isEmpty_eq_false_iff,
        List.all_eq_true] at h
      exact ⟨id, rfl, h.1, h.2⟩
    · cases h
  · rintro ⟨id, rfl, hne, hall⟩
    show (!id.isEmpty && id.all isIdUnit) = true
    simpa [hne] using hall

theorem not_isIdSeparator {c : CodeUnit} (h : isIdUnit c = true) : isIdSeparator c = false := by
  rw [Bool.eq_false_iff]
  intro hsep
  simp only [isIdSeparator, Bool.or_eq_true, beq_iff_eq] at hsep
  rcases hsep with (rfl | rfl) | rfl <;> exact absurd h (by decide)

theorem TEST_ID_unit (h : TEST_ID t = true) {c : CodeUnit} (hc : c ∈ t) : isIdUnit c = true := by
  obtain ⟨id, rfl, -, hall⟩ := TEST_ID_iff.mp h
  have hword : (ascii "TC-").all isIdUnit = true := rfl
  rcases List.mem_append.mp hc with hc | hc
  · exact List.all_eq_true.mp hword c hc
  · exact hall c hc

theorem head?_dropWhile (p : CodeUnit → Bool) (t : Text) : (t.dropWhile p).head?.any p = false := by
  induction t with
  | nil => rfl
  | cons x t ih =>
    by_cases hx : p x = true
    · simpa [hx] using ih
    · simp [hx]

/-- An identifier at the start of a text, and the separators behind it. -/
theorem idAt_eq_some {m : Text} (h : idAt t = some m) :
    ∃ w seps rest, t = w ++ (seps ++ rest) ∧ m = w ++ seps ∧ TEST_ID w = true ∧
      (∀ c ∈ seps, isIdSeparator c = true) ∧ rest.head?.any isIdSeparator = false ∧
      (seps ++ rest).head?.any isIdUnit = false := by
  unfold idAt at h
  split_ifs at h with hid
  obtain ⟨⟨rest, rfl⟩, hne⟩ := hid
  have hdrop : (ascii "TC-" ++ rest).drop 3 = rest := by rw [ascii_TC]; rfl
  simp only [idChars, hdrop] at hne h
  refine ⟨ascii "TC-" ++ rest.takeWhile isIdUnit,
    (rest.dropWhile isIdUnit).takeWhile isIdSeparator,
    (rest.dropWhile isIdUnit).dropWhile isIdSeparator, ?_, (Option.some.inj h).symm,
    TEST_ID_iff.mpr ⟨_, rfl, hne, fun c hc => ?_⟩, fun c hc => ?_, head?_dropWhile _ _, ?_⟩
  · rw [List.takeWhile_append_dropWhile, List.append_assoc, List.takeWhile_append_dropWhile]
  · exact List.mem_takeWhile_imp hc
  · exact List.mem_takeWhile_imp hc
  · rw [List.takeWhile_append_dropWhile]
    exact head?_dropWhile _ _

theorem head?_splitRuns (p : CodeUnit → Bool) (t : Text) :
    ∃ words, splitRuns p false t = (t.takeWhile fun c => !p c) :: words := by
  induction t with
  | nil => exact ⟨[], rfl⟩
  | cons x t ih =>
    obtain ⟨words, hwords⟩ := ih
    by_cases hx : p x = true
    · exact ⟨_, by simp [splitRuns, hx]; rfl⟩
    · exact ⟨words, by simp [splitRuns, hx, hwords]⟩

theorem titleIds_of_idAt_eq_none (h : idAt t = none) : titleIds t = [] := by
  unfold titleIds
  obtain ⟨words, hwords⟩ := head?_splitRuns isIdSeparator
    (t.takeWhile fun c => isIdUnit c || isIdSeparator c)
  rw [hwords, List.takeWhile_cons, if_neg]
  intro hid
  obtain ⟨id, hword, hne, hall⟩ := TEST_ID_iff.mp hid
  have hpre : ascii "TC-" ++ id <+: t := by
    rw [← hword]
    exact (List.takeWhile_prefix _).trans (List.takeWhile_prefix _)
  obtain ⟨rest, rfl⟩ := hpre
  obtain ⟨c, id, rfl⟩ := List.exists_cons_of_ne_nil hne
  have hc : isIdUnit c = true := hall c List.mem_cons_self
  unfold idAt at h
  split_ifs at h with hnone
  refine hnone ⟨⟨c :: id ++ rest, by simp⟩, ?_⟩
  rw [idChars, ascii_TC]
  simp [hc]

theorem head?_leadingIds (n : ℕ) (t : Text) :
    (leadingIds n t).head?.any isIdSeparator = false := by
  cases n with
  | zero => rfl
  | succ n =>
    rw [leadingIds]
    cases h : idAt t with
    | none => rfl
    | some m =>
      obtain ⟨w, seps, rest, rfl, rfl, hw, -⟩ := idAt_eq_some h
      obtain ⟨id, rfl, -⟩ := TEST_ID_iff.mp hw
      rw [ascii_TC]
      rfl

theorem leadingIds_of_head? {n : ℕ} (h : t.head?.any isIdUnit = false) : leadingIds n t = [] := by
  have hnone : idAt t = none := by
    rw [Option.eq_none_iff_forall_ne_some]
    intro m hm
    obtain ⟨w, seps, rest, rfl, -, hw, -⟩ := idAt_eq_some hm
    obtain ⟨id, rfl, -⟩ := TEST_ID_iff.mp hw
    rw [ascii_TC] at h
    have hT : isIdUnit 0x54 = false := h
    exact absurd hT (by decide)
  cases n with
  | zero => rfl
  | succ n => rw [leadingIds, hnone]

/-- One identifier more: the words of what the pattern takes, and the words of the title. -/
theorem ids_append {m : Text} (h : idAt t = some m) (n : ℕ)
    (ih : (splitRuns isIdSeparator false (leadingIds n (t.drop m.length))).filter TEST_ID =
      titleIds (t.drop m.length)) :
    (splitRuns isIdSeparator false (m ++ leadingIds n (t.drop m.length))).filter TEST_ID =
      titleIds t := by
  obtain ⟨w, seps, rest, rfl, rfl, hw, hseps, hrest, hnext⟩ := idAt_eq_some h
  have hdrop : (w ++ (seps ++ rest)).drop (w ++ seps).length = rest := by
    rw [← List.append_assoc]
    exact List.drop_left' rfl
  have hchars : ∀ c ∈ w, isIdSeparator c = false := fun c hc =>
    not_isIdSeparator (TEST_ID_unit hw hc)
  have hclass : ∀ c ∈ w, (isIdUnit c || isIdSeparator c) = true := fun c hc => by
    rw [TEST_ID_unit hw hc, Bool.true_or]
  rw [hdrop] at ih ⊢
  unfold titleIds
  rw [List.takeWhile_append_of_pos hclass]
  cases seps with
  | nil =>
    -- what stops the identifier is no separator either, so the title's words end here
    have hstop : rest.takeWhile (fun c => isIdUnit c || isIdSeparator c) = [] := by
      cases rest with
      | nil => rfl
      | cons c rest =>
        simp only [List.nil_append, List.head?_cons, Option.any_some] at hrest hnext
        simp [hrest, hnext]
    rw [List.nil_append] at hnext
    rw [leadingIds_of_head? hnext, List.nil_append, hstop, List.append_nil, List.append_nil,
      splitRuns_word hchars]
    simp [hw]
  | cons x seps =>
    have hsepclass : ∀ c ∈ x :: seps, (isIdUnit c || isIdSeparator c) = true := fun c hc => by
      rw [hseps c hc, Bool.or_true]
    have hhead : (rest.takeWhile fun c => isIdUnit c || isIdSeparator c).head?.any
        isIdSeparator = false := by
      cases rest with
      | nil => rfl
      | cons c rest =>
        simp only [List.head?_cons, Option.any_some] at hrest
        by_cases hc : isIdUnit c = true
        · simp [hc, hrest]
        · simp [hc, hrest]
    rw [List.takeWhile_append_of_pos hsepclass,
      splitRuns_append hchars (List.cons_ne_nil x seps) hseps hhead, List.append_assoc,
      splitRuns_append hchars (List.cons_ne_nil x seps) hseps (head?_leadingIds n rest),
      List.filter_cons_of_pos hw, List.takeWhile_cons_of_pos hw, ih]
    rfl

theorem ids_leadingIds {n : ℕ} (h : t.length ≤ n) :
    (splitRuns isIdSeparator false (leadingIds n t)).filter TEST_ID = titleIds t := by
  induction n generalizing t with
  | zero =>
    rw [List.length_eq_zero_iff.mp (Nat.le_zero.mp h)]
    rfl
  | succ n ih =>
    rw [leadingIds]
    cases hid : idAt t with
    | none =>
      rw [titleIds_of_idAt_eq_none hid]
      rfl
    | some m =>
      obtain ⟨w, seps, rest, ht, rfl, hw, -⟩ := idAt_eq_some hid
      refine ids_append hid n (ih ?_)
      have hlength := congrArg List.length ht
      obtain ⟨id, rfl, hne, -⟩ := TEST_ID_iff.mp hw
      have hpos := List.length_pos_iff.mpr hne
      simp only [List.length_drop, List.length_append] at hlength ⊢
      omega

/-- The identifiers of what is captured are those of the title. -/
theorem map_first_capture_ids (before : Option CodeUnit) (t : Text) :
    ((first (capture (many1 idPattern)) ⟨before, t⟩).elim [] fun r =>
      (splitRuns isIdSeparator false r.1).filter TEST_ID) = titleIds t := by
  rw [first_capture_ids]
  cases hid : idAt t with
  | none => exact (titleIds_of_idAt_eq_none hid).symm
  | some m => exact ids_append hid _ (ids_leadingIds le_rfl)

end Ids

section Escape

variable {t u : Text}

theorem splitRuns_ne_nil (p : CodeUnit → Bool) (inRun : Bool) (t : Text) :
    splitRuns p inRun t ≠ [] := by
  induction t generalizing inRun with
  | nil => simp [splitRuns]
  | cons x t ih =>
    rw [splitRuns]
    split_ifs
    · exact ih true
    · exact List.cons_ne_nil _ _
    · simp [ih false]

/-- A separator at the end adds an empty word at most. -/
theorem splitRuns_concat (p : CodeUnit → Bool) (inRun : Bool) (t : Text) {x : CodeUnit}
    (hx : p x = true) : ∃ e, (e = [] ∨ e = [[]]) ∧
      splitRuns p inRun (t ++ [x]) = splitRuns p inRun t ++ e := by
  induction t generalizing inRun with
  | nil =>
    cases inRun with
    | true => exact ⟨[], .inl rfl, by simp [splitRuns, hx]⟩
    | false => exact ⟨[[]], .inr rfl, by simp [splitRuns, hx]⟩
  | cons y t ih =>
    by_cases hy : p y = true
    · obtain ⟨e, he, hsplit⟩ := ih true
      refine ⟨e, he, ?_⟩
      cases inRun with
      | true => simp [splitRuns, hy, hsplit]
      | false => simp [splitRuns, hy, hsplit]
    · obtain ⟨e, he, hsplit⟩ := ih false
      refine ⟨e, he, ?_⟩
      obtain ⟨word, words, hwords⟩ := List.exists_cons_of_ne_nil (splitRuns_ne_nil p false t)
      simp [splitRuns, hy, hsplit, hwords]

theorem takeWhile_splitRuns_concat {x : CodeUnit} (hx : isIdSeparator x = true) (t : Text) :
    (splitRuns isIdSeparator false (t ++ [x])).takeWhile TEST_ID =
      (splitRuns isIdSeparator false t).takeWhile TEST_ID := by
  obtain ⟨e, rfl | rfl, hsplit⟩ := splitRuns_concat isIdSeparator false t hx
  · rw [hsplit, List.append_nil]
  · rw [hsplit, List.takeWhile_append]
    split_ifs with hall
    · rw [(List.takeWhile_prefix _).eq_of_length hall]
      exact List.append_nil _
    · rfl

/-- A unit the pattern takes. -/
def isTitleUnit (c : CodeUnit) : Bool := isIdUnit c || isIdSeparator c

/-- A unit of a title that the pattern takes is written as it is; any other is written so that
the pattern stops. -/
theorem escapeUnit_spec (c : CodeUnit) : (isTitleUnit c = true ∧ escapeUnit c = [c]) ∨
    (isTitleUnit c = false ∧ ∃ d s, escapeUnit c = d :: s ∧ isTitleUnit d = false) := by
  have hbackslash : isTitleUnit 0x5c = false := by decide
  have hletter : ∀ letter : String, (ascii letter).head? = some 0x5c →
      ∃ d s, ascii letter = d :: s ∧ isTitleUnit d = false := by
    intro letter h
    obtain ⟨s, hs⟩ := List.head?_eq_some_iff.mp h
    exact ⟨0x5c, s, hs, hbackslash⟩
  unfold escapeUnit
  split_ifs with h h h h h h h
  · refine .inr ⟨?_, 0x5c, [c], rfl, hbackslash⟩
    rcases h with rfl | rfl <;> decide
  · exact .inr ⟨by rw [h]; decide, hletter "\\b" (rfl)⟩
  · exact .inr ⟨by rw [h]; decide, hletter "\\t" (rfl)⟩
  · exact .inr ⟨by rw [h]; decide, hletter "\\n" (rfl)⟩
  · exact .inr ⟨by rw [h]; decide, hletter "\\v" (rfl)⟩
  · exact .inr ⟨by rw [h]; decide, hletter "\\f" (rfl)⟩
  · exact .inr ⟨by rw [h]; decide, hletter "\\r" (rfl)⟩
  · cases hc : isTitleUnit c with
    | true => exact .inl ⟨rfl, rfl⟩
    | false => exact .inr ⟨rfl, c, [], rfl, hc⟩

theorem newline_not_mem_escapeUnit (c : CodeUnit) : (0x0a : CodeUnit) ∉ escapeUnit c := by
  unfold escapeUnit
  split_ifs with h h h h h h h
  · rcases h with rfl | rfl <;> decide
  · decide
  · decide
  · decide
  · decide
  · decide
  · decide
  · simp only [List.mem_singleton]
    exact fun heq => by simp [← heq] at *

theorem takeWhile_tapEscape (title u : Text) :
    (tapEscape title ++ u).takeWhile isTitleUnit =
      title.takeWhile isTitleUnit ++
        if title.all isTitleUnit then u.takeWhile isTitleUnit else [] := by
  induction title with
  | nil => simp [tapEscape]
  | cons c title ih =>
    have hcons : tapEscape (c :: title) ++ u = escapeUnit c ++ (tapEscape title ++ u) := by
      simp [tapEscape]
    rw [hcons]
    rcases escapeUnit_spec c with ⟨hc, hescape⟩ | ⟨hc, d, s, hescape, hd⟩
    · rw [hescape, List.singleton_append, List.takeWhile_cons_of_pos hc, ih]
      simp [hc]
    · rw [hescape, List.cons_append, List.takeWhile_cons_of_neg (by simp [hd])]
      simp [hc]

theorem takeWhile_directiveText (directive : Option Directive) :
    (directiveText directive).takeWhile isTitleUnit = [] ∨
      (directiveText directive).takeWhile isTitleUnit = [0x20] := by
  have hskip : ascii " # SKIP" = [0x20, 0x23, 0x20, 0x53, 0x4b, 0x49, 0x50] := rfl
  have htodo : ascii " # TODO" = [0x20, 0x23, 0x20, 0x54, 0x4f, 0x44, 0x4f] := rfl
  cases directive with
  | none => exact .inl rfl
  | some directive =>
    cases directive with
    | skip reason => exact .inr (by rw [directiveText, hskip]; rfl)
    | todo reason => exact .inr (by rw [directiveText, htodo]; rfl)

/-- Neither the escapes nor the directive change the identifiers of a title. -/
theorem titleIds_tapEscape (title : Text) (directive : Option Directive) :
    titleIds (tapEscape title ++ directiveText directive) = titleIds title := by
  have htitle : ∀ t, titleIds t =
      (splitRuns isIdSeparator false (t.takeWhile isTitleUnit)).takeWhile TEST_ID := fun t => rfl
  rw [htitle, htitle, takeWhile_tapEscape]
  split_ifs
  · rcases takeWhile_directiveText directive with h | h
    · rw [h, List.append_nil]
    · rw [h]
      exact takeWhile_splitRuns_concat (by decide) _
  · rw [List.append_nil]

end Escape

section Line

variable {before : Option CodeUnit} {t : Text}

/-- The parts of the pattern behind the white space. -/
def afterSpaces : Regex CodeUnit (Text × Text) := do
  let status ← capture (oneOf [word "not ok", word "ok"])
  word " "
  many1 (unit isDigit)
  word " - "
  let ids ← capture (many1 idPattern)
  return (status, ids)

/-- The parts of the pattern behind the number. -/
def afterNumber (status : Text) : Regex CodeUnit (Text × Text) := do
  word " - "
  let ids ← capture (many1 idPattern)
  return (status, ids)

theorem run_word_append (text : String) (t : Text) :
    (word text).run ⟨before, ascii text ++ t⟩ = [((), ascii text)] := by
  rw [word_eq, run_inOrder, if_pos (List.prefix_append _ _)]

theorem run_word_of_head? {text : String} {x y : CodeUnit} {s : Text}
    (htext : ascii text = y :: s) (hne : x ≠ y) : (word text).run ⟨before, x :: t⟩ = [] := by
  rw [word_eq, run_inOrder, if_neg]
  rw [htext]
  exact fun h => hne (List.cons_prefix_cons.mp h).1.symm

theorem ascii_ok : ascii "ok" = [0x6f, 0x6b] := rfl

theorem ascii_not_ok : ascii "not ok" = [0x6e, 0x6f, 0x74, 0x20, 0x6f, 0x6b] := rfl

theorem ascii_hyphen : ascii " - " = [0x20, 0x2d, 0x20] := rfl

/-- The text of the status. -/
def statusText (ok : Bool) : Text := if ok then ascii "ok" else ascii "not ok"

theorem run_status (ok : Bool) (t : Text) :
    (capture (oneOf [word "not ok", word "ok"])).run ⟨before, statusText ok ++ t⟩ =
      [(statusText ok, statusText ok)] := by
  have hrun : ∀ c, (capture (oneOf [word "not ok", word "ok"])).run c =
      ((word "not ok").run c ++ (word "ok").run c).map fun r => (r.2, r.2) := by
    intro c
    show ((word "not ok").run c ++ ((word "ok").run c ++ [])).map _ = _
    rw [List.append_nil]
  rw [hrun]
  cases ok with
  | true =>
    have hother : (word "not ok").run ⟨before, statusText true ++ t⟩ = [] := by
      rw [statusText, if_pos rfl, ascii_ok]
      exact run_word_of_head? ascii_not_ok (by decide)
    have hthis : (word "ok").run ⟨before, statusText true ++ t⟩ = [((), ascii "ok")] :=
      run_word_append "ok" t
    rw [hother, hthis]
    rfl
  | false =>
    have hother : (word "ok").run ⟨before, statusText false ++ t⟩ = [] := by
      rw [statusText, if_neg (by decide), ascii_not_ok]
      exact run_word_of_head? ascii_ok (by decide)
    have hthis : (word "not ok").run ⟨before, statusText false ++ t⟩ = [((), ascii "not ok")] :=
      run_word_append "not ok" t
    rw [hother, hthis]
    rfl

/-- What a match says of tests. -/
def marks (r : Option ((Text × Text) × Text)) : List (Bool × Text) :=
  r.elim [] fun r =>
    ((splitRuns isIdSeparator false r.1.2).filter TEST_ID).map (r.1.1 == ascii "ok", ·)

theorem lineResults_eq (line : Text) :
    lineResults line = marks (first linePattern ⟨none, line⟩) := by
  unfold lineResults
  cases first linePattern ⟨none, line⟩ <;> rfl

/-- It does not matter how much of the line was matched. -/
theorem marks_map (m : Text) (r : Option ((Text × Text) × Text)) :
    marks (r.map fun s => (s.1, m ++ s.2)) = marks r := by
  cases r <;> rfl

theorem rest_after (before : Option CodeUnit) (s t : Text) :
    Cursor.after ⟨before, s ++ t⟩ s = ⟨s.getLast?.or before, t⟩ := by
  simp [Cursor.after]

theorem marks_afterNumber (ok : Bool) (before : Option CodeUnit) (t : Text) :
    marks (first (afterNumber (statusText ok)) ⟨before, ascii " - " ++ t⟩) =
      (titleIds t).map (ok, ·) := by
  have hstatus : (statusText ok == ascii "ok") = ok := by cases ok <;> rfl
  have hids : ∀ before, marks (first (capture (many1 idPattern) >>= fun ids =>
      pure (statusText ok, ids)) ⟨before, t⟩) = (titleIds t).map (ok, ·) := by
    intro before
    rw [← map_first_capture_ids before t]
    cases h : first (capture (many1 idPattern)) ⟨before, t⟩ with
    | none =>
      rw [first_bind_of_none h]
      rfl
    | some r =>
      rw [first_bind (f := fun ids => pure (statusText ok, ids)) h (first_pure _), marks,
        Option.elim_some, hstatus, Option.elim_some]
  rw [afterNumber, first_bind_of_run (run_word_append " - " t), marks_map, rest_after]
  exact hids _

theorem marks_afterSpaces (ok : Bool) (before : Option CodeUnit) (number : ℕ+) (t : Text) :
    marks (first afterSpaces ⟨before, statusText ok ++ (ascii " " ++ (decimalDigits number ++
      (ascii " - " ++ t)))⟩) = (titleIds t).map (ok, ·) := by
  obtain ⟨d, ds, hds⟩ := List.exists_cons_of_ne_nil (decimalDigits_ne_nil number.pos)
  have hdigit : ∀ c ∈ d :: ds, isDigit c = true := fun c hc => isDigit_decimalDigits (hds ▸ hc)
  have hunit : ∀ before t, (unit isDigit).run ⟨before, d :: t⟩ = [((), [d])] := fun _ _ =>
    if_pos (hdigit d List.mem_cons_self)
  have hhyphen : ∀ before x rest, isDigit x = true →
      (afterNumber (statusText ok)).run ⟨before, x :: rest⟩ = [] := by
    intro before x rest hx
    have hne : x ≠ 0x20 := by
      rintro rfl
      exact absurd hx (by decide)
    rw [afterNumber, run_bind, run_word_of_head? ascii_hyphen hne]
    rfl
  have htake : (ds ++ (ascii " - " ++ t)).takeWhile isDigit = ds := by
    rw [List.takeWhile_append_of_pos fun c hc => hdigit c (List.mem_cons_of_mem _ hc), ascii_hyphen]
    exact List.append_nil _
  have hdigits : ∀ before, marks (first (many (unit isDigit) >>= fun _ =>
      afterNumber (statusText ok)) ⟨before, ds ++ (ascii " - " ++ t)⟩) =
        (titleIds t).map (ok, ·) := by
    intro before
    rw [first_many_unit_bind (f := fun _ => afterNumber (statusText ok)) hhyphen, marks_map, htake,
      rest_after]
    exact marks_afterNumber ok _ t
  rw [afterSpaces, first_bind_of_run (run_status ok _), marks_map, rest_after,
    first_bind_of_run (run_word_append " " _), marks_map, rest_after, hds, many1, bind_assoc,
    List.cons_append, first_bind_of_run (hunit _ _), marks_map]
  exact hdigits _

theorem marks_linePattern (ok : Bool) (nesting : ℕ) (number : ℕ+) (t : Text) :
    marks (first linePattern ⟨none, List.replicate (4 * nesting) 0x20 ++ (statusText ok ++
      (ascii " " ++ (decimalDigits number ++ (ascii " - " ++ t))))⟩) =
        (titleIds t).map (ok, ·) := by
  have hstart : ∀ before x rest, isSpace x = true → afterSpaces.run ⟨before, x :: rest⟩ = [] := by
    intro before x rest hx
    have hn : x ≠ 0x6e := by
      rintro rfl
      exact absurd hx (by decide)
    have ho : x ≠ 0x6f := by
      rintro rfl
      exact absurd hx (by decide)
    have hstatus : (capture (oneOf [word "not ok", word "ok"])).run ⟨before, x :: rest⟩ = [] := by
      show ((word "not ok").run _ ++ ((word "ok").run _ ++ [])).map _ = _
      rw [run_word_of_head? ascii_not_ok hn, run_word_of_head? ascii_ok ho]
      rfl
    rw [afterSpaces, run_bind, hstatus]
    rfl
  have htake : ∀ t, (List.replicate (4 * nesting) 0x20 ++ (statusText ok ++ t)).takeWhile isSpace =
      List.replicate (4 * nesting) 0x20 := by
    intro t
    rw [List.takeWhile_append_of_pos]
    · cases ok with
      | true => rw [statusText, if_pos rfl, ascii_ok]; exact List.append_nil _
      | false => rw [statusText, if_neg (by decide), ascii_not_ok]; exact List.append_nil _
    · intro c hc
      rw [List.eq_of_mem_replicate hc]
      decide
  have hpattern : linePattern = many (unit isSpace) >>= fun _ => afterSpaces := rfl
  rw [hpattern, first_many_unit_bind (f := fun _ => afterSpaces) hstart, marks_map, htake,
    rest_after]
  exact marks_afterSpaces ok _ number t

/-- The line of a test point is read as its status and the identifiers of its title. -/
theorem lineResults_line (point : TestPoint) :
    lineResults point.line = (titleIds point.title).map (point.ok, ·) := by
  have hline : point.line = List.replicate (4 * point.nesting) 0x20 ++ (statusText point.ok ++
      (ascii " " ++ (decimalDigits point.number ++ (ascii " - " ++
        (tapEscape point.title ++ directiveText point.directive))))) := by
    have hspace : ascii " " = [0x20] := rfl
    rw [hspace]
    simp only [TestPoint.line, statusText, List.append_assoc]
  rw [lineResults_eq, hline, marks_linePattern, titleIds_tapEscape]

end Line

section Reports

variable {reports : List Report} {id : Text}

theorem newline_not_mem_tapEscape (text : Text) : (0x0a : CodeUnit) ∉ tapEscape text := by
  unfold tapEscape
  rw [List.mem_flatMap]
  rintro ⟨c, -, hc⟩
  exact newline_not_mem_escapeUnit c hc

theorem newline_not_mem_directiveText (directive : Option Directive) :
    (0x0a : CodeUnit) ∉ directiveText directive := by
  have hreason : ∀ reason, (0x0a : CodeUnit) ∉ reasonText reason := by
    intro reason
    unfold reasonText
    split_ifs
    · exact List.not_mem_nil
    · rw [List.mem_cons, not_or]
      exact ⟨by decide, newline_not_mem_tapEscape reason⟩
  cases directive with
  | none => exact List.not_mem_nil
  | some directive =>
    cases directive with
    | skip reason =>
      rw [directiveText, List.mem_append, not_or]
      exact ⟨by decide, hreason reason⟩
    | todo reason =>
      rw [directiveText, List.mem_append, not_or]
      exact ⟨by decide, hreason reason⟩

theorem newline_not_mem_line (point : TestPoint) : (0x0a : CodeUnit) ∉ point.line := by
  unfold TestPoint.line
  simp only [List.mem_append, not_or]
  refine ⟨⟨⟨⟨⟨⟨?_, ?_⟩, by decide⟩, ?_⟩, by decide⟩, newline_not_mem_tapEscape _⟩,
    newline_not_mem_directiveText _⟩
  · intro h
    exact absurd (List.eq_of_mem_replicate h) (by decide)
  · split_ifs <;> decide
  · intro h
    exact absurd (isDigit_decimalDigits h) (by decide)

/-- What a line of a report says of tests. -/
def ReportLine.results : ReportLine → List (Bool × Text)
  | .point p => (titleIds p.title).map (p.ok, ·)
  | .other line _ => lineResults line

theorem lineResults_text (line : ReportLine) : lineResults line.text = line.results := by
  cases line with
  | point p => exact lineResults_line p
  | other line h => rfl

theorem splitOn_contents (report : Report) :
    report.file.contents.splitOn 0x0a = report.lines.map ReportLine.text := by
  refine List.splitOn_intercalate _ ?_ (by simp [Report.lines])
  intro text htext
  obtain ⟨line, -, rfl⟩ := List.mem_map.mp htext
  cases line with
  | point p => exact newline_not_mem_line p
  | other line h => exact h

/-- The lines of the reports that are read. -/
def reportLines (reports : List Report) : List ReportLine :=
  (reports.filter fun report => (ascii ".tap").isSuffixOf report.name).flatMap Report.lines

theorem tapResults_file (reports : List Report) :
    tapResults (reports.map Report.file) =
      { passed := (((reportLines reports).flatMap ReportLine.results).filter (·.1)).map (·.2)
        failed := (((reportLines reports).flatMap ReportLine.results).filter (!·.1)).map (·.2) } := by
  have hresults : (((reports.map Report.file).filter fun file =>
      (ascii ".tap").isSuffixOf file.name).flatMap fun file =>
        (file.contents.splitOn 0x0a).flatMap lineResults) =
      (reportLines reports).flatMap ReportLine.results := by
    rw [List.filter_map, List.flatMap_map, reportLines, List.flatMap_assoc]
    refine List.flatMap_congr fun report _ => ?_
    rw [splitOn_contents, List.flatMap_map]
    exact List.flatMap_congr fun line _ => lineResults_text line
  unfold tapResults
  rw [hresults]

theorem mem_passed : id ∈ (tapResults (reports.map Report.file)).passed ↔
    ∃ line ∈ reportLines reports, (true, id) ∈ line.results := by
  rw [tapResults_file]
  simp

theorem mem_failed : id ∈ (tapResults (reports.map Report.file)).failed ↔
    ∃ line ∈ reportLines reports, (false, id) ∈ line.results := by
  rw [tapResults_file]
  simp

end Reports

section Gate

variable {automated financialEpics : List Text} {reports : List Report} {roadmap : Roadmap}
  {epic : RoadmapEpic} {story : RoadmapStory}

/-- What the gate asks of a story, with the reports as they are read: a line names a test and says
`ok`, and none says `not ok`. -/
structure StoryAccepted (automated financialEpics : List Text) (reports : List Report)
    (epic : RoadmapEpic) (story : RoadmapStory) : Prop where
  tests : story.tests ≠ []
  passing : ∀ test ∈ story.tests, test.status = ascii "passing"
  automated : ∀ test ∈ story.tests, test.id ∈ automated
  reported : ∀ test ∈ story.tests, ∃ line ∈ reportLines reports, (true, test.id) ∈ line.results
  notFailed : ∀ test ∈ story.tests, ∀ line ∈ reportLines reports, (false, test.id) ∉ line.results
  reconciled : epic.id ∈ financialEpics →
    hasReconciliationTest story = true ∨ 20 ≤ (rationale story).length

/-- The stories that the roadmap marks as implemented. -/
def Implemented (roadmap : Roadmap) (epic : RoadmapEpic) (story : RoadmapStory) : Prop :=
  epic ∈ roadmap.epics ∧ story ∈ epic.stories ∧ story.implementation = some (ascii "implemented")

theorem pushIf_eq_nil_iff {condition : Bool} {failure : Text} :
    pushIf condition failure = [] ↔ condition = false := by
  cases condition <;> simp [pushIf]

theorem testFailures_eq_nil_iff {where_ : Text} {test : RoadmapTest} :
    testFailures automated (some (tapResults (reports.map Report.file))) where_ test = [] ↔
      test.status = ascii "passing" ∧ test.id ∈ automated ∧
        (∃ line ∈ reportLines reports, (true, test.id) ∈ line.results) ∧
          ∀ line ∈ reportLines reports, (false, test.id) ∉ line.results := by
  have hreported : ((some (tapResults (reports.map Report.file))).any fun results =>
      !results.passed.contains test.id || results.failed.contains test.id) = false ↔
        (∃ line ∈ reportLines reports, (true, test.id) ∈ line.results) ∧
          ∀ line ∈ reportLines reports, (false, test.id) ∉ line.results := by
    rw [Option.any_some, Bool.or_eq_false_iff, Bool.not_eq_false', List.contains_iff_mem, mem_passed,
      ← Bool.not_eq_true, List.contains_iff_mem, mem_failed]
    simp only [not_exists, not_and]
  unfold testFailures
  rw [List.append_eq_nil_iff, List.append_eq_nil_iff, pushIf_eq_nil_iff, pushIf_eq_nil_iff,
    pushIf_eq_nil_iff, bne_eq_false_iff_eq, Bool.not_eq_false', List.contains_iff_mem, hreported,
    and_assoc]

theorem storyFailures_eq_nil_iff :
    storyFailures automated (some (tapResults (reports.map Report.file))) financialEpics epic story =
      [] ↔ (story.implementation = some (ascii "implemented") →
        StoryAccepted automated financialEpics reports epic story) := by
  unfold storyFailures
  by_cases himplemented : story.implementation = some (ascii "implemented")
  · rw [if_neg (not_not.mpr himplemented), List.append_eq_nil_iff, List.append_eq_nil_iff,
      pushIf_eq_nil_iff, pushIf_eq_nil_iff, List.flatMap_eq_nil_iff]
    simp only [testFailures_eq_nil_iff, List.isEmpty_eq_false_iff]
    constructor
    · rintro ⟨⟨htests, hall⟩, hreconciled⟩ -
      refine ⟨htests, fun test h => (hall test h).1, fun test h => (hall test h).2.1,
        fun test h => (hall test h).2.2.1, fun test h => (hall test h).2.2.2, fun hepic => ?_⟩
      cases htest : hasReconciliationTest story with
      | true => exact .inl rfl
      | false =>
        have hlong : epic.id ∈ financialEpics → 20 ≤ (rationale story).length := by
          simpa [htest] using hreconciled
        exact .inr (hlong hepic)
    · intro h
      have haccepted := h himplemented
      refine ⟨⟨haccepted.tests, fun test htest => ⟨haccepted.passing test htest,
        haccepted.automated test htest, haccepted.reported test htest,
        haccepted.notFailed test htest⟩⟩, ?_⟩
      cases hepic : financialEpics.contains epic.id with
      | false => rfl
      | true =>
        rcases haccepted.reconciled (List.contains_iff_mem.mp hepic) with htest | hlong
        · simp [htest]
        · simp [hlong]
  · rw [if_pos himplemented]
    exact ⟨fun _ h => absurd h himplemented, fun _ => rfl⟩

/-- What the gate reports of a roadmap with the reports of a run. -/
def gateFailures (roadmap : Roadmap) (automated : Option (List Text))
    (financiallyMaterialEpics : Option (List Text)) (reports : List Report) : List Text :=
  checkStoryDefinitionOfDone roadmap
    { automated, financiallyMaterialEpics
      reports := some (tapResults (reports.map Report.file)) }

/-- The gate lets a roadmap pass. -/
def Accepted (roadmap : Roadmap) (automated : Option (List Text))
    (financiallyMaterialEpics : Option (List Text)) (reports : List Report) : Prop :=
  ∀ epic story, Implemented roadmap epic story →
    StoryAccepted (automated.getD []) (financiallyMaterialEpics.getD FINANCIALLY_MATERIAL_EPICS)
      reports epic story

theorem gateFailures_eq_nil_iff {automated financial : Option (List Text)} :
    gateFailures roadmap automated financial reports = [] ↔
      Accepted roadmap automated financial reports := by
  unfold gateFailures checkStoryDefinitionOfDone Accepted Implemented
  simp only [List.flatMap_eq_nil_iff, storyFailures_eq_nil_iff]
  constructor
  · rintro h epic story ⟨hepic, hstory, himplemented⟩
    exact h epic hepic story hstory himplemented
  · intro h epic hepic story hstory himplemented
    exact h epic story ⟨hepic, hstory, himplemented⟩

/-- A line that reports a test that ran: a test point without a directive. -/
def ReportLine.Ran : ReportLine → Prop
  | .point p => p.directive = none
  | .other _ _ => False

/-- Every implemented story has tests, and each of them ran and passed in the reports, and
failed in none. -/
def Sound (roadmap : Roadmap) (reports : List Report) : Prop :=
  ∀ epic story, Implemented roadmap epic story → story.tests ≠ [] ∧ ∀ test ∈ story.tests,
    (∃ p : TestPoint, .point p ∈ reportLines reports ∧ test.id ∈ titleIds p.title ∧
      p.ok = true ∧ p.directive = none) ∧
    ∀ p : TestPoint, .point p ∈ reportLines reports → test.id ∈ titleIds p.title → p.ok = true

theorem mem_results_point {p : TestPoint} {ok : Bool} {id : Text} :
    (ok, id) ∈ (ReportLine.point p).results ↔ id ∈ titleIds p.title ∧ p.ok = ok := by
  simp [ReportLine.results, and_comm]

/-- An accepted roadmap is sound if and only if each test of an implemented story is named by
an `ok` line of a test that ran. -/
theorem sound_iff {automated financial : Option (List Text)}
    (h : Accepted roadmap automated financial reports) :
    Sound roadmap reports ↔ ∀ epic story, Implemented roadmap epic story → ∀ test ∈ story.tests,
      ∃ line ∈ reportLines reports, (true, test.id) ∈ line.results ∧ line.Ran := by
  constructor
  · intro hsound epic story himplemented test htest
    obtain ⟨⟨p, hp, hid, hok, hran⟩, -⟩ := (hsound epic story himplemented).2 test htest
    exact ⟨.point p, hp, mem_results_point.mpr ⟨hid, hok⟩, hran⟩
  · intro hran epic story himplemented
    have haccepted := h epic story himplemented
    refine ⟨haccepted.tests, fun test htest => ⟨?_, fun p hp hid => ?_⟩⟩
    · obtain ⟨line, hline, hresult, hran⟩ := hran epic story himplemented test htest
      cases line with
      | point p =>
        obtain ⟨hid, hok⟩ := mem_results_point.mp hresult
        exact ⟨p, hline, hid, hok, hran⟩
      | other line h => cases hran
    · by_contra hok
      exact haccepted.notFailed test htest _ hp
        (mem_results_point.mpr ⟨hid, Bool.eq_false_iff.mpr hok⟩)

/-- Each test that the reports name in a line that reads as `ok`, and in none that reads as
`not ok`, is named in such a line by a test that ran. -/
def PassedRan (reports : List Report) : Prop :=
  ∀ id, (∃ line ∈ reportLines reports, (true, id) ∈ line.results) →
    (∀ line ∈ reportLines reports, (false, id) ∉ line.results) →
    ∃ line ∈ reportLines reports, (true, id) ∈ line.results ∧ line.Ran

/-- A roadmap with one implemented story and one test. -/
def roadmapOf (id : Text) : Roadmap :=
  { epics := [{
      id := ascii "SUB-E001"
      stories := [{
        id := ascii "US-1"
        implementation := some (ascii "implemented")
        tests := [{ id, status := ascii "passing", type := ascii "unit" }]
        reconciliationRationale := none }] }] }

theorem implemented_roadmapOf {id : Text} : ∃ epic story,
    Implemented (roadmapOf id) epic story ∧ story.tests = [⟨id, ascii "passing", ascii "unit"⟩] :=
  ⟨_, _, ⟨List.mem_singleton_self _, List.mem_singleton_self _, rfl⟩, rfl⟩

/-- All that the gate asks of this roadmap is that the reports say its test passed. -/
theorem accepted_roadmapOf {id : Text}
    (hreported : ∃ line ∈ reportLines reports, (true, id) ∈ line.results)
    (hnotFailed : ∀ line ∈ reportLines reports, (false, id) ∉ line.results) :
    Accepted (roadmapOf id) (some [id]) none reports := by
  rintro epic story ⟨hepic, hstory, -⟩
  cases List.mem_singleton.mp hepic
  cases List.mem_singleton.mp hstory
  have hfinancial : ascii "SUB-E001" ∉ FINANCIALLY_MATERIAL_EPICS := by decide
  refine ⟨List.cons_ne_nil _ _, ?_, ?_, ?_, ?_, fun h => absurd h hfinancial⟩ <;>
    intro test htest <;> cases List.mem_singleton.mp htest
  · rfl
  · exact List.mem_singleton_self id
  · exact hreported
  · exact hnotFailed

/-- The gate is sound for all roadmaps if and only if the tests that the reports of the run say
passed did run. -/
theorem gate_sound_iff (reports : List Report) :
    (∀ roadmap automated financial, gateFailures roadmap automated financial reports = [] →
      Sound roadmap reports) ↔ PassedRan reports := by
  simp only [gateFailures_eq_nil_iff]
  constructor
  · intro hsound id hreported hnotFailed
    have haccepted := accepted_roadmapOf hreported hnotFailed
    obtain ⟨epic, story, himplemented, htests⟩ := @implemented_roadmapOf id
    refine (sound_iff haccepted).mp (hsound _ _ _ haccepted) epic story himplemented
      ⟨id, ascii "passing", ascii "unit"⟩ ?_
    rw [htests]
    exact List.mem_singleton_self _
  · intro hran roadmap automated financial haccepted
    refine (sound_iff haccepted).mpr fun epic story himplemented test htest => ?_
    have hstory := haccepted epic story himplemented
    exact hran test.id (hstory.reported test htest) (hstory.notFailed test htest)

def skippedReport : Report where
  name := ascii "unit.tap"
  first := .point
    { nesting := 0, ok := true, number := 1, title := ascii "TC-1 a test"
      directive := some (.skip []) }
  rest := []

/-- A story whose only test was skipped passes the gate. -/
theorem gate_accepts_skipped :
    gateFailures (roadmapOf (ascii "TC-1")) (some [ascii "TC-1"]) none [skippedReport] = [] ∧
      ¬Sound (roadmapOf (ascii "TC-1")) [skippedReport] := by
  refine ⟨rfl, fun hsound => ?_⟩
  obtain ⟨-, htests⟩ := hsound _ _
    ⟨List.mem_singleton_self _, List.mem_singleton_self _, rfl⟩
  obtain ⟨⟨p, hp, -, -, hran⟩, -⟩ := htests _ (List.mem_singleton_self _)
  have hlines : reportLines [skippedReport] = [skippedReport.first] := by
    rw [reportLines, List.filter_eq_self.mpr]
    · rfl
    · intro report hreport
      rw [List.mem_singleton.mp hreport]
      rfl
  rw [hlines, List.mem_singleton] at hp
  cases hp
  cases hran

end Gate

end Sintius.DefinitionOfDone
