import Mathlib
import Sintius.Lib.Utf16
import Sintius.Lib.NumberText

/-! JSON values and their canonical text: no white space, members in the order of
their keys. A value has one canonical text, and a text, read from the front up to
a comma, a bracket or the end, is that of one value. -/

namespace Js

/-- JSON values. A number is its value and an object a finite map, so that neither the sign of
zero nor the order of members is part of a value. -/
inductive Json where
  | null
  | bool (b : Bool)
  | number (q : ℚ)
  | string (s : Text)
  | array (items : List Json)
  | object (members : Text → Option Json)

instance : Inhabited Json := ⟨.null⟩

/-- `texts.join(",")` -/
def joined : List Text → Text
  | [] => []
  | s :: ss => s ++ ss.flatMap fun t => 0x2c :: t

def nullText : Text := [0x6e, 0x75, 0x6c, 0x6c]
def trueText : Text := [0x74, 0x72, 0x75, 0x65]
def falseText : Text := [0x66, 0x61, 0x6c, 0x73, 0x65]

def boolText (b : Bool) : Text := if b then trueText else falseText
def arrayText (texts : List Text) : Text := 0x5b :: (joined texts ++ [0x5d])
def objectText (texts : List Text) : Text := 0x7b :: (joined texts ++ [0x7d])
def memberText (key : Text) (text : Text) : Text := quoteJson key ++ 0x3a :: text

/-- The texts of members are those of their values, after the key. -/
def Member (P : Json → Text → Prop) (entry : Text × Json) (text : Text) : Prop :=
  ∃ t, P entry.2 t ∧ text = memberText entry.1 t

/-- The entries of a finite map, in the order of the keys. -/
structure Lists (entries : List (Text × Json)) (members : Text → Option Json) : Prop where
  sorted : entries.Pairwise fun a b => a.1 < b.1
  mem : ∀ k j, members k = some j ↔ (k, j) ∈ entries

/-- The canonical text of a value of at most so many levels. -/
def Writes : ℕ → Json → Text → Prop
  | 0, _, _ => False
  | n + 1, j, t =>
    match j with
    | .null => t = nullText
    | .bool b => t = boolText b
    | .number q => ∃ d : Double, d.value = q ∧ t = numberText d
    | .string s => t = quoteJson s
    | .array items => ∃ texts, List.Forall₂ (Writes n) items texts ∧ t = arrayText texts
    | .object members => ∃ entries texts, Lists entries members ∧
        List.Forall₂ (Member (Writes n)) entries texts ∧ t = objectText texts

/-- The end, or a code unit that may follow a value inside an array or an object. -/
def Terminated (r : Text) : Prop :=
  ∀ c u, r = c :: u → c = 0x2c ∨ c = 0x5d ∨ c = 0x7d

theorem terminated_nil : Terminated [] := by
  intro c u h
  cases h

theorem terminated_cons {c : CodeUnit} {u : Text} (h : c = 0x2c ∨ c = 0x5d ∨ c = 0x7d) :
    Terminated (c :: u) := by
  intro c' u' heq
  cases heq
  exact h

/-- Number texts end where something else begins. -/
theorem numberText_append_inj {d e : Double} {r r' : Text} (hr : Terminated r)
    (hr' : Terminated r') (h : numberText d ++ r = numberText e ++ r') :
    numberText d = numberText e ∧ r = r' := by
  have hstop : ∀ s, Terminated s → s.takeWhile isNumberUnit = [] := by
    intro s hs
    cases s with
    | nil => rfl
    | cons c u =>
      have hc : isNumberUnit c = false := by
        obtain rfl | rfl | rfl := hs c u rfl <;> decide
      simp [hc]
  have htake : ∀ (d : Double) (s : Text), Terminated s →
      (numberText d ++ s).takeWhile isNumberUnit = numberText d := by
    intro d s hs
    obtain ⟨-, -, -, -, hunits⟩ := numberText_eq_cons d
    rw [List.takeWhile_append_of_pos hunits, hstop s hs, List.append_nil]
  have heq : numberText d = numberText e := by
    rw [← htake d r hr, ← htake e r' hr', h]
  rw [heq] at h
  exact ⟨heq, List.append_cancel_left h⟩

/-- Elements that can be told apart from the front of a text can be so in a row with commas
between them, up to the closing bracket. -/
theorem joined_append_inj {α : Type} {P Q : α → Text → Prop} {close : CodeUnit}
    (hclose : close = 0x5d ∨ close = 0x7d)
    (hinj : ∀ {a b s t r r'}, P a s → Q b t → Terminated r → Terminated r' →
      s ++ r = t ++ r' → a = b ∧ r = r')
    (hP : ∀ {a s}, P a s → ∃ c u, s = c :: u ∧ c ≠ close)
    (hQ : ∀ {a s}, Q a s → ∃ c u, s = c :: u ∧ c ≠ close)
    {as bs : List α} {ss ts : List Text} {r r' : Text}
    (ha : List.Forall₂ P as ss) (hb : List.Forall₂ Q bs ts)
    (h : joined ss ++ close :: r = joined ts ++ close :: r') : as = bs ∧ r = r' := by
  have hcomma : close ≠ 0x2c := by rcases hclose with rfl | rfl <;> decide
  have hterm : ∀ (ss : List Text) (r : Text),
      Terminated ((ss.flatMap fun t => 0x2c :: t) ++ close :: r) := by
    intro ss r
    cases ss with
    | nil => exact terminated_cons (.inr hclose)
    | cons s ss => exact terminated_cons (.inl rfl)
  -- what comes after the first element
  have htail : ∀ {as bs : List α} {ss ts : List Text}, List.Forall₂ P as ss →
      List.Forall₂ Q bs ts →
      (ss.flatMap fun t => 0x2c :: t) ++ close :: r =
        (ts.flatMap fun t => 0x2c :: t) ++ close :: r' → as = bs ∧ r = r' := by
    intro as bs ss ts ha
    induction ha generalizing bs ts with
    | nil =>
      intro hb h
      cases hb with
      | nil => simpa using h
      | cons _ _ => simp [hcomma] at h
    | cons has _ ih =>
      intro hb h
      cases hb with
      | nil => simp [hcomma.symm] at h
      | cons hbs hb =>
        simp only [List.flatMap_cons, List.cons_append, List.append_assoc, List.cons.injEq,
          true_and] at h
        obtain ⟨rfl, hrest⟩ := hinj has hbs (hterm _ _) (hterm _ _) h
        obtain ⟨rfl, hr⟩ := ih hb hrest
        exact ⟨rfl, hr⟩
  cases ha with
  | nil =>
    cases hb with
    | nil => simpa [joined] using h
    | cons hbs _ =>
      obtain ⟨c, u, rfl, hc⟩ := hQ hbs
      simp [joined, hc.symm] at h
  | cons has ha =>
    cases hb with
    | nil =>
      obtain ⟨c, u, rfl, hc⟩ := hP has
      simp [joined, hc] at h
    | cons hbs hb =>
      simp only [joined, List.append_assoc] at h
      obtain ⟨rfl, hrest⟩ := hinj has hbs (hterm _ _) (hterm _ _) h
      obtain ⟨rfl, hr⟩ := htail ha hb hrest
      exact ⟨rfl, hr⟩

/-- The kind of a value, as its text shows it. -/
def Json.kind : Json → ℕ
  | .null => 0
  | .bool _ => 1
  | .number _ => 2
  | .string _ => 3
  | .array _ => 4
  | .object _ => 5

/-- The kind of value that begins with a code unit. -/
def leadKind (c : CodeUnit) : ℕ :=
  if c = 0x6e then 0
  else if c = 0x74 ∨ c = 0x66 then 1
  else if c = 0x22 then 3
  else if c = 0x5b then 4
  else if c = 0x7b then 5
  else if c = 0x5d ∨ c = 0x7d then 6
  else 2

theorem leadKind_number {c : CodeUnit} (h : isDigit c ∨ c = 0x2d) : leadKind c = 2 := by
  rcases h with h | rfl
  · unfold leadKind
    split_ifs with h₁ h₂ h₃ h₄ h₅ h₆
    all_goals try rfl
    · subst h₁
      exact absurd h (by decide)
    · rcases h₂ with rfl | rfl <;> exact absurd h (by decide)
    · subst h₃
      exact absurd h (by decide)
    · subst h₄
      exact absurd h (by decide)
    · subst h₅
      exact absurd h (by decide)
    · rcases h₆ with rfl | rfl <;> exact absurd h (by decide)
  · decide

/-- The text of a value shows its kind. -/
theorem Writes.exists_lead {n : ℕ} {j : Json} {t : Text} (h : Writes n j t) :
    ∃ c u, t = c :: u ∧ leadKind c = j.kind := by
  cases n with
  | zero => cases h
  | succ n =>
    cases j with
    | null => exact ⟨_, _, h, by decide⟩
    | bool b => cases b <;> exact ⟨_, _, h, by decide⟩
    | number q =>
      obtain ⟨d, -, rfl⟩ := h
      obtain ⟨c, u, heq, hc, -⟩ := numberText_eq_cons d
      exact ⟨c, u, heq, leadKind_number hc⟩
    | string s => exact ⟨_, _, h, (by decide : leadKind 0x22 = 3)⟩
    | array items =>
      obtain ⟨texts, -, rfl⟩ := h
      exact ⟨_, _, rfl, (by decide : leadKind 0x5b = 4)⟩
    | object members =>
      obtain ⟨entries, texts, -, -, rfl⟩ := h
      exact ⟨_, _, rfl, (by decide : leadKind 0x7b = 5)⟩

theorem Writes.head_ne_close {n : ℕ} {j : Json} {t : Text} (h : Writes n j t) :
    ∃ c u, t = c :: u ∧ c ≠ 0x5d := by
  obtain ⟨c, u, rfl, hc⟩ := h.exists_lead
  refine ⟨c, u, rfl, ?_⟩
  rintro rfl
  rw [show leadKind 0x5d = 6 by decide] at hc
  cases j <;> simp [Json.kind] at hc

theorem Member.head_ne_close {P : Json → Text → Prop} {entry : Text × Json} {text : Text}
    (h : Member P entry text) : ∃ c u, text = c :: u ∧ c ≠ 0x7d := by
  obtain ⟨t, -, rfl⟩ := h
  exact ⟨_, _, rfl, by decide⟩

theorem Lists.ext {entries : List (Text × Json)} {m m' : Text → Option Json}
    (h : Lists entries m) (h' : Lists entries m') : m = m' := by
  funext k
  apply Option.ext
  intro j
  rw [h.mem, h'.mem]

theorem Lists.unique {entries entries' : List (Text × Json)} {m : Text → Option Json}
    (h : Lists entries m) (h' : Lists entries' m) : entries = entries' := by
  have hnodup : entries.Nodup := h.sorted.imp fun hlt heq => by simp [heq] at hlt
  have hnodup' : entries'.Nodup := h'.sorted.imp fun hlt heq => by simp [heq] at hlt
  have hperm : entries.Perm entries' := by
    rw [List.perm_ext_iff_of_nodup hnodup hnodup']
    rintro ⟨k, j⟩
    rw [← h.mem, h'.mem]
  apply hperm.eq_of_pairwise _ h.sorted h'.sorted
  intro a b _ _ hab hba
  exact absurd hab hba.asymm

/-- Members are told apart from the front if values are. -/
theorem Member.append_inj {P Q : Json → Text → Prop}
    (hinj : ∀ {i j s t r r'}, P i s → Q j t → Terminated r → Terminated r' →
      s ++ r = t ++ r' → i = j ∧ r = r')
    {a b : Text × Json} {s t r r' : Text} (ha : Member P a s) (hb : Member Q b t)
    (hr : Terminated r) (hr' : Terminated r') (h : s ++ r = t ++ r') : a = b ∧ r = r' := by
  obtain ⟨s', hs, rfl⟩ := ha
  obtain ⟨t', ht, rfl⟩ := hb
  simp only [memberText, List.append_assoc, List.cons_append] at h
  obtain ⟨hkey, hrest⟩ := quoteJson_append_inj h
  obtain ⟨hvalue, hr⟩ := hinj hs ht hr hr' (List.cons.inj hrest).2
  exact ⟨Prod.ext hkey hvalue, hr⟩

/-- A value can be read back from the front of a text. -/
theorem Writes.append_inj {n m : ℕ} {i j : Json} {s t r r' : Text} (hi : Writes n i s)
    (hj : Writes m j t) (hr : Terminated r) (hr' : Terminated r') (h : s ++ r = t ++ r') :
    i = j ∧ r = r' := by
  induction n generalizing m i j s t r r' with
  | zero => cases hi
  | succ n ih =>
    -- both values are of the kind that the first code unit shows
    have hkind : i.kind = j.kind := by
      obtain ⟨c, u, rfl, hc⟩ := hi.exists_lead
      obtain ⟨d, v, rfl, hd⟩ := hj.exists_lead
      rw [← hc, ← hd, (List.cons.inj h).1]
    cases m with
    | zero => cases hj
    | succ m =>
      cases i <;> cases j <;> simp [Json.kind] at hkind
      case null.null =>
        rw [hi, hj] at h
        exact ⟨rfl, List.append_cancel_left h⟩
      case bool.bool b b' =>
        rw [hi, hj] at h
        cases b <;> cases b' <;> simp [boolText, trueText, falseText] at h ⊢ <;> exact h
      case number.number q q' =>
        obtain ⟨d, rfl, rfl⟩ := hi
        obtain ⟨e, rfl, rfl⟩ := hj
        obtain ⟨htext, hrest⟩ := numberText_append_inj hr hr' h
        rw [(numberText_eq_iff d e).mp htext]
        exact ⟨rfl, hrest⟩
      case string.string a b =>
        rw [hi, hj] at h
        obtain ⟨rfl, hrest⟩ := quoteJson_append_inj h
        exact ⟨rfl, hrest⟩
      case array.array items items' =>
        obtain ⟨texts, hitems, rfl⟩ := hi
        obtain ⟨texts', hitems', rfl⟩ := hj
        simp only [arrayText, List.cons_append, List.append_assoc, List.nil_append,
          List.cons.injEq, true_and] at h
        obtain ⟨rfl, hrest⟩ := joined_append_inj (.inl rfl)
          (fun hs ht hr hr' heq => ih hs ht hr hr' heq) Writes.head_ne_close
          Writes.head_ne_close hitems hitems' h
        exact ⟨rfl, hrest⟩
      case object.object members members' =>
        obtain ⟨entries, texts, hlists, hentries, rfl⟩ := hi
        obtain ⟨entries', texts', hlists', hentries', rfl⟩ := hj
        simp only [objectText, List.cons_append, List.append_assoc, List.nil_append,
          List.cons.injEq, true_and] at h
        obtain ⟨rfl, hrest⟩ := joined_append_inj (.inr rfl)
          (fun hs ht hr hr' heq => Member.append_inj
            (fun hs ht hr hr' heq => ih hs ht hr hr' heq) hs ht hr hr' heq)
          Member.head_ne_close Member.head_ne_close hentries hentries' h
        rw [hlists.ext hlists']
        exact ⟨rfl, hrest⟩

/-- A text is that of one value. -/
theorem Writes.injective {n m : ℕ} {i j : Json} {t : Text} (hi : Writes n i t)
    (hj : Writes m j t) : i = j :=
  (hi.append_inj hj terminated_nil terminated_nil rfl).1

theorem forall₂_functional {α : Type} {P Q : α → Text → Prop}
    (h : ∀ {a s t}, P a s → Q a t → s = t) {as : List α} {ss ts : List Text}
    (hs : List.Forall₂ P as ss) (ht : List.Forall₂ Q as ts) : ss = ts := by
  induction hs generalizing ts with
  | nil => cases ht; rfl
  | cons hhead _ ih =>
    cases ht with
    | cons hhead' htail => rw [h hhead hhead', ih htail]

/-- A value has one text. -/
theorem Writes.functional {n m : ℕ} {j : Json} {s t : Text} (hs : Writes n j s)
    (ht : Writes m j t) : s = t := by
  induction n generalizing m j s t with
  | zero => cases hs
  | succ n ih =>
    cases m with
    | zero => cases ht
    | succ m =>
      cases j with
      | null => exact hs.trans ht.symm
      | bool b => exact hs.trans ht.symm
      | number q =>
        obtain ⟨d, hd, rfl⟩ := hs
        obtain ⟨e, he, rfl⟩ := ht
        exact (numberText_eq_iff d e).mpr (hd.trans he.symm)
      | string a => exact hs.trans ht.symm
      | array items =>
        obtain ⟨texts, hitems, rfl⟩ := hs
        obtain ⟨texts', hitems', rfl⟩ := ht
        have htexts : texts = texts' := forall₂_functional (P := Writes n) (Q := Writes m)
          (fun hs ht => ih hs ht) hitems hitems'
        rw [htexts]
      | object members =>
        obtain ⟨entries, texts, hlists, hentries, rfl⟩ := hs
        obtain ⟨entries', texts', hlists', hentries', rfl⟩ := ht
        rw [hlists.unique hlists'] at hentries
        refine congrArg objectText (forall₂_functional ?_ hentries hentries')
        rintro a - - ⟨s, hs, rfl⟩ ⟨t, ht, rfl⟩
        rw [ih hs ht]

theorem wellFormed_joined {texts : List Text} (h : ∀ t ∈ texts, WellFormed t) :
    WellFormed (joined texts) := by
  cases texts with
  | nil => exact .nil
  | cons s ss =>
    refine (h s (by simp)).append ?_
    have htail : ∀ t ∈ ss, WellFormed t := fun t ht => h t (by simp [ht])
    clear h
    induction ss with
    | nil => exact .nil
    | cons t ss ih =>
      rw [List.flatMap_cons]
      exact WellFormed.append (.unit (by decide) (htail t (by simp)))
        (ih fun u hu => htail u (by simp [hu]))

theorem wellFormed_number {d : Double} : WellFormed (numberText d) := by
  apply wellFormed_of_ascii
  intro c hc
  obtain ⟨-, -, -, -, hunits⟩ := numberText_eq_cons d
  have := hunits c hc
  simp only [isNumberUnit, isDigit, Bool.or_eq_true, Bool.and_eq_true, decide_eq_true_eq,
    beq_iff_eq] at this
  obtain (((⟨-, h⟩ | rfl) | rfl) | rfl) | rfl := this
  · omega
  all_goals decide

end Js
