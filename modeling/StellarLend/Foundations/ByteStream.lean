import Mathlib.Algebra.Order.Ring.Nat
import Mathlib.Data.List.Basic

/-!
# Foundations/ByteStream — values written one after another as bytes

    text     ·· ·· ·· ·· ·· ff
    none     00 00 00 00 00 00 00 00
    some     01 00 00 00 00 00 00 00   ·· ·· ·· ·· ·· ·· ·· ··

A text ends in a byte that no text has in it, a word is eight bytes with the lowest first, and an
option of a word is a word that says whether another one follows.  Nothing says how many texts come
before the options, and a text may read like an option; but a stream that ends in a given number of
options can be read in one way only (`texts_append_options`).
-/

namespace Foundations.ByteStream

/-! ## What is written -/

/-- A number in so many bytes, the lowest first. -/
def littleEndian : ℕ → ℕ → List UInt8
  | 0, _ => []
  | size + 1, n => UInt8.ofNat n :: littleEndian size (n / 256)

def word (w : UInt64) : List UInt8 := littleEndian 8 w.toNat

def option : Option UInt64 → List UInt8
  | none => word 0
  | some w => word 1 ++ word w

def utf8 (s : String) : List UInt8 := s.toByteArray.data.toList

def text (s : String) : List UInt8 := utf8 s ++ [0xff]

def texts (ss : List String) : List UInt8 := ss.flatMap text

def options (os : List (Option UInt64)) : List UInt8 := os.flatMap option

/-! ## Separators -/

variable {α : Type} {x : α} {c d e f : List α}

/-- What comes before a first separator is told apart from what comes after it. -/
theorem append_cons_inj (hc : x ∉ c) (hd : x ∉ d) (h : c ++ x :: e = d ++ x :: f) :
    c = d ∧ e = f := by
  induction c generalizing d with
  | nil =>
    cases d with
    | nil => exact ⟨rfl, (List.cons.inj h).2⟩
    | cons y d => exact absurd ((List.cons.inj h).1 ▸ List.mem_cons_self) hd
  | cons y c ih =>
    cases d with
    | nil => exact absurd ((List.cons.inj h).1 ▸ List.mem_cons_self) hc
    | cons z d =>
      obtain ⟨rfl, hrest⟩ := List.cons.inj h
      obtain ⟨rfl, rfl⟩ := ih (List.not_mem_of_not_mem_cons hc) (List.not_mem_of_not_mem_cons hd)
        hrest
      exact ⟨rfl, rfl⟩

/-- What comes after a last separator is told apart from what comes before it. -/
theorem append_cons_inj' (he : x ∉ e) (hf : x ∉ f) (h : c ++ x :: e = d ++ x :: f) :
    c = d ∧ e = f := by
  have hreverse : e.reverse ++ x :: c.reverse = f.reverse ++ x :: d.reverse := by
    simpa using congrArg List.reverse h
  obtain ⟨hlast, hrest⟩ := append_cons_inj (by rwa [List.mem_reverse]) (by rwa [List.mem_reverse])
    hreverse
  exact ⟨List.reverse_inj.mp hrest, List.reverse_inj.mp hlast⟩

/-! ## Words -/

variable {s s' : String} {ss ss' : List String} {w w' : UInt64} {o o' : Option UInt64}
  {os os' : List (Option UInt64)} {a b : List UInt8}

@[simp] theorem length_littleEndian (size n : ℕ) : (littleEndian size n).length = size := by
  induction size generalizing n with
  | zero => rfl
  | succ size ih => rw [littleEndian, List.length_cons, ih]

theorem littleEndian_inj {size m n : ℕ} (hm : m < 256 ^ size) (hn : n < 256 ^ size)
    (h : littleEndian size m = littleEndian size n) : m = n := by
  induction size generalizing m n with
  | zero =>
    rw [pow_zero] at hm hn
    omega
  | succ size ih =>
    obtain ⟨hlow, hrest⟩ := List.cons.inj h
    have hlow : m % 256 = n % 256 := by simpa using congrArg UInt8.toNat hlow
    have hrest : m / 256 = n / 256 :=
      ih (by rw [Nat.div_lt_iff_lt_mul (by decide)]; rwa [pow_succ] at hm)
        (by rw [Nat.div_lt_iff_lt_mul (by decide)]; rwa [pow_succ] at hn) hrest
    omega

@[simp] theorem length_word (w : UInt64) : (word w).length = 8 := length_littleEndian ..

theorem word_inj (h : word w = word w') : w = w' :=
  UInt64.toNat_inj.mp (littleEndian_inj w.toNat_lt w'.toNat_lt h)

/-! ## Options -/

theorem length_option (o : Option UInt64) : (option o).length = 8 ∨ (option o).length = 16 := by
  cases o with
  | none => exact .inl (length_word 0)
  | some w => exact .inr (by rw [option, List.length_append, length_word, length_word])

/-- Two options are told apart where they begin. -/
theorem option_append_inj (h : option o ++ a = option o' ++ b) : o = o' ∧ a = b := by
  have hne : word 0 ≠ word 1 := by decide
  cases o with
  | none =>
    cases o' with
    | none => exact ⟨rfl, List.append_cancel_left h⟩
    | some w' =>
      rw [option, option, List.append_assoc] at h
      exact absurd (List.append_inj_left h (by simp)) hne
  | some w =>
    cases o' with
    | none =>
      rw [option, option, List.append_assoc] at h
      exact absurd (List.append_inj_left h (by simp)).symm hne
    | some w' =>
      rw [option, option, List.append_assoc, List.append_assoc] at h
      obtain ⟨hword, hrest⟩ := List.append_inj (List.append_cancel_left h) (by simp)
      rw [word_inj hword]
      exact ⟨rfl, hrest⟩

theorem options_cons : options (o :: os) = option o ++ options os := List.flatMap_cons ..

theorem option_ne_nil : option o ≠ [] := fun h => by
  rcases length_option o with hlen | hlen <;> rw [h] at hlen <;> cases hlen

theorem options_inj (h : options os = options os') : os = os' := by
  induction os generalizing os' with
  | nil =>
    cases os' with
    | nil => rfl
    | cons o' os' =>
      rw [options_cons] at h
      exact absurd (List.append_eq_nil_iff.mp h.symm).1 option_ne_nil
  | cons o os ih =>
    cases os' with
    | nil =>
      rw [options_cons] at h
      exact absurd (List.append_eq_nil_iff.mp h).1 option_ne_nil
    | cons o' os' =>
      rw [options_cons, options_cons] at h
      obtain ⟨rfl, hrest⟩ := option_append_inj h
      rw [ih hrest]

theorem eight_dvd_options (os : List (Option UInt64)) : 8 ∣ (options os).length := by
  induction os with
  | nil => exact Nat.dvd_zero 8
  | cons o os ih =>
    rw [options_cons, List.length_append]
    rcases length_option o with hlen | hlen <;> omega

/-- The word that says whether another follows does not end in `ff`. -/
theorem option_seventh (o : Option UInt64) : (option o)[7]? = some 0 := by
  cases o with
  | none => decide
  | some w =>
    rw [option, List.getElem?_append_left (by simp)]
    decide

/-- **What comes after an `ff` has fewer options**, if it is options at all. -/
theorem length_lt_of_options_eq (h : options os = a ++ 0xff :: options os') :
    os'.length < os.length := by
  induction os generalizing a with
  | nil => exact absurd h.symm (List.append_ne_nil_of_right_ne_nil _ (List.cons_ne_nil _ _))
  | cons o os ih =>
    rw [options_cons] at h
    rcases lt_or_ge a.length (option o).length with hin | hout
    · have hlen := congrArg List.length h
      rw [List.length_append, List.length_append, List.length_cons] at hlen
      obtain ⟨m, hm⟩ := eight_dvd_options os
      obtain ⟨n, hn⟩ := eight_dvd_options os'
      have hff : (option o)[a.length]? = some 0xff := by
        have hat := congrArg (·[a.length]?) h
        simpa [List.getElem?_append_left hin] using hat
      have hseven : a.length ≠ 7 := fun heq => by
        rw [heq, option_seventh] at hff
        exact absurd hff (by decide)
      have hlast : a.length + 1 = (option o).length := by
        rcases length_option o with hsize | hsize <;> omega
      rw [List.append_cons] at h
      have hrest := List.append_inj_right h (by rw [List.length_append]; exact hlast.symm)
      rw [options_inj hrest]
      exact Nat.lt_succ_self _
    · obtain ⟨c, rfl⟩ : option o <+: a :=
        List.prefix_of_prefix_length_le ⟨_, h⟩ ⟨_, rfl⟩ hout
      rw [List.append_assoc] at h
      exact (ih (List.append_cancel_left h)).trans (Nat.lt_succ_self _)

/-! ## Texts -/

theorem ofNat_ne_ff {n : ℕ} (h : n < 255) : UInt8.ofNat n ≠ 0xff := fun heq => by
  have hn : n % 256 = 255 := by simpa using congrArg UInt8.toNat heq
  omega

theorem ff_notMem_utf8EncodeChar (c : Char) : 0xff ∉ String.utf8EncodeChar c := by
  fun_cases String.utf8EncodeChar with
  | case1 hv => simpa using (ofNat_ne_ff (by omega)).symm
  | case2 | case3 | case4 =>
    simp only [List.mem_cons, List.not_mem_nil, or_false, not_or]
    repeat' constructor
    all_goals exact (ofNat_ne_ff (by omega)).symm

theorem ff_notMem_utf8 (s : String) : 0xff ∉ utf8 s := fun hmem => by
  obtain ⟨cs, hcs⟩ := s.isValidUTF8
  rw [utf8, hcs, List.utf8Encode, List.toList_data_toByteArray] at hmem
  obtain ⟨c, -, hc⟩ := List.mem_flatMap.mp hmem
  exact ff_notMem_utf8EncodeChar c hc

theorem utf8_inj (h : utf8 s = utf8 s') : s = s' :=
  String.toByteArray_inj.mp (ByteArray.ext (Array.toList_inj.mp h))

/-- Two texts are told apart where they begin. -/
theorem text_append_inj (h : text s ++ a = text s' ++ b) : s = s' ∧ a = b := by
  rw [text, text, List.append_assoc, List.append_assoc] at h
  obtain ⟨hs, hrest⟩ := append_cons_inj (ff_notMem_utf8 s) (ff_notMem_utf8 s') h
  exact ⟨utf8_inj hs, hrest⟩

theorem texts_cons : texts (s :: ss) = text s ++ texts ss := List.flatMap_cons ..

/-- Texts end in an `ff`. -/
theorem texts_cons_eq (s : String) (ss : List String) : ∃ a, texts (s :: ss) = a ++ [0xff] := by
  induction ss generalizing s with
  | nil => exact ⟨utf8 s, by rw [texts_cons, text]; exact List.append_nil _⟩
  | cons s' ss ih =>
    obtain ⟨a, ha⟩ := ih s'
    exact ⟨text s ++ a, by rw [texts_cons, ha, List.append_assoc]⟩

/-! ## Texts and then options -/

/-- Where there are no texts, none can be read. -/
theorem options_ne_texts_cons (hlen : os.length = os'.length) :
    options os ≠ texts (s :: ss) ++ options os' := fun h => by
  obtain ⟨a, ha⟩ := texts_cons_eq s ss
  rw [ha, List.append_assoc] at h
  exact absurd (length_lt_of_options_eq h) (not_lt.mpr hlen.le)

/-- **Texts and a given number of options are read back in one way.** -/
theorem texts_append_options (hlen : os.length = os'.length)
    (h : texts ss ++ options os = texts ss' ++ options os') : ss = ss' ∧ os = os' := by
  induction ss generalizing ss' with
  | nil =>
    cases ss' with
    | nil => exact ⟨rfl, options_inj h⟩
    | cons s' ss' => exact absurd h (options_ne_texts_cons hlen)
  | cons s ss ih =>
    cases ss' with
    | nil => exact absurd h.symm (options_ne_texts_cons hlen.symm)
    | cons s' ss' =>
      rw [texts_cons, texts_cons, List.append_assoc, List.append_assoc] at h
      obtain ⟨rfl, hrest⟩ := text_append_inj h
      obtain ⟨rfl, rfl⟩ := ih hrest
      exact ⟨rfl, rfl⟩

end Foundations.ByteStream
