import Mathlib.Data.List.Basic
import Mathlib.Data.List.Nodup

/-!
# Foundations/Json — JSON values, and what the text of one tells of it

`stringify keys` is JavaScript's `JSON.stringify` with a list of names: of every object, at every
depth, only the members with these names are printed, in the order of the list.  It is `prune keys`,
which drops the others, followed by `print`, which loses nothing (`print_injective`): two values are
printed alike exactly if they are pruned alike.
-/

namespace Foundations

/-! ## Values -/

/-- The characters that numbers are printed with. -/
def isNumeric (c : Char) : Bool := c.isDigit || c == '-' || c == '+' || c == '.' || c == 'e'

/-- A number, as the text it is printed as; numbers that are printed alike are one here. -/
structure Number where
  text : List Char
  ne_nil : text ≠ []
  numeric : ∀ c ∈ text, isNumeric c = true

theorem Number.ext {m n : Number} (h : m.text = n.text) : m = n := by
  cases m
  cases n
  cases h
  rfl

def Number.ofNat (n : ℕ) : Number where
  text := Nat.toDigits 10 n
  ne_nil := Nat.toDigits_ne_nil
  numeric := fun c hc => by
    rw [isNumeric, Nat.isDigit_of_mem_toDigits (by decide) (by decide) hc]
    rfl

inductive Json where
  | null
  | bool (b : Bool)
  | num (n : Number)
  | str (s : String)
  | arr (items : List Json)
  | obj (members : List (String × Json))

namespace Json

/-! ## Strings -/

/-- The letter that a character is escaped with, where it has one. -/
def shortEscape : ℕ → Option Char
  | 8 => some 'b'
  | 9 => some 't'
  | 10 => some 'n'
  | 12 => some 'f'
  | 13 => some 'r'
  | 34 => some '"'
  | 92 => some '\\'
  | _ => none

/-- A character of a string; control characters without a letter are printed by their number. -/
def escape (c : Char) : List Char :=
  match shortEscape c.toNat with
  | some e => ['\\', e]
  | none =>
    if c.toNat < 32 then
      ['\\', 'u', '0', '0', Nat.digitChar (c.toNat / 16), Nat.digitChar (c.toNat % 16)]
    else [c]

def quote (s : String) : List Char := '"' :: (s.toList.flatMap escape ++ ['"'])

/-! ## Printing -/

/-- What stands before an item that is not the first. -/
def separator (first : Bool) : List Char := if first then [] else [',']

mutual

def print : Json → List Char
  | .null => ['n', 'u', 'l', 'l']
  | .bool true => ['t', 'r', 'u', 'e']
  | .bool false => ['f', 'a', 'l', 's', 'e']
  | .num n => n.text
  | .str s => quote s
  | .arr items => '[' :: printItems true items
  | .obj members => '{' :: printMembers true members

def printItems (first : Bool) : List Json → List Char
  | [] => [']']
  | v :: vs => separator first ++ (print v ++ printItems false vs)

def printMembers (first : Bool) : List (String × Json) → List Char
  | [] => ['}']
  | (k, v) :: ms => separator first ++ (quote k ++ (':' :: (print v ++ printMembers false ms)))

end

/-! ## Pruning -/

/-- The properties of these names, in this order, those that are there. -/
def select (keys : List String) (get : String → Option Json) : List (String × Json) :=
  keys.filterMap fun k => (get k).map (Prod.mk k)

mutual

/-- The part of a value that is printed. -/
def prune (keys : List String) : Json → Json
  | .arr items => .arr (pruneItems keys items)
  | .obj members => .obj (select keys fun k => (pruneMembers keys members).lookup k)
  | v => v

def pruneItems (keys : List String) : List Json → List Json
  | [] => []
  | v :: vs => prune keys v :: pruneItems keys vs

def pruneMembers (keys : List String) : List (String × Json) → List (String × Json)
  | [] => []
  | (k, v) :: ms => (k, prune keys v) :: pruneMembers keys ms

end

/-- `JSON.stringify(value, keys)` -/
def stringify (keys : List String) (v : Json) : String := String.ofList (print (prune keys v))

/-! ## Strings are printed without loss -/

/-- The character that a letter stands for after a backslash. -/
def unescape : Char → ℕ
  | 'b' => 8
  | 't' => 9
  | 'n' => 10
  | 'f' => 12
  | 'r' => 13
  | e => e.toNat

theorem unescape_of_shortEscape {n : ℕ} {e : Char} (h : shortEscape n = some e) :
    unescape e = n ∧ e ≠ 'u' := by
  unfold shortEscape at h
  split at h <;> cases h <;> decide

theorem digitChar_injective : ∀ m < 16, ∀ n < 16, Nat.digitChar m = Nat.digitChar n → m = n := by
  decide

theorem char_eq {c d : Char} (h : c.toNat = d.toNat) : c = d := by
  rw [← Char.ofNat_toNat c, h, Char.ofNat_toNat]

/-- The three ways to print a character. -/
theorem escape_cases (c : Char) :
    (∃ e, shortEscape c.toNat = some e ∧ escape c = ['\\', e]) ∨
    (c.toNat < 32 ∧ escape c =
      ['\\', 'u', '0', '0', Nat.digitChar (c.toNat / 16), Nat.digitChar (c.toNat % 16)]) ∨
    (c ≠ '"' ∧ c ≠ '\\' ∧ escape c = [c]) := by
  cases h : shortEscape c.toNat with
  | some e => exact .inl ⟨e, rfl, by rw [escape, h]⟩
  | none =>
    by_cases hc : c.toNat < 32
    · refine .inr (.inl ⟨hc, ?_⟩)
      rw [escape, h]
      exact if_pos hc
    · refine .inr (.inr ⟨?_, ?_, ?_⟩)
      · rintro rfl
        cases h
      · rintro rfl
        cases h
      · rw [escape, h]
        exact if_neg hc

/-- **A printed character can be read off what it begins.** -/
theorem escape_cancel {c d : Char} {r s : List Char} (h : escape c ++ r = escape d ++ s) :
    c = d ∧ r = s := by
  rcases escape_cases c with ⟨e, hc, hce⟩ | ⟨hc, hce⟩ | ⟨-, hc, hce⟩ <;>
    rcases escape_cases d with ⟨f, hd, hde⟩ | ⟨hd, hde⟩ | ⟨-, hd, hde⟩ <;>
    rw [hce, hde] at h <;> simp only [List.cons_append, List.nil_append, List.cons.injEq] at h
  · obtain ⟨-, rfl, hrs⟩ := h
    have hn : c.toNat = d.toNat :=
      (unescape_of_shortEscape hc).1.symm.trans (unescape_of_shortEscape hd).1
    exact ⟨char_eq hn, hrs⟩
  · exact absurd h.2.1 (unescape_of_shortEscape hc).2
  · exact absurd h.1.symm hd
  · exact absurd h.2.1.symm (unescape_of_shortEscape hd).2
  · obtain ⟨-, -, -, -, hhigh, hlow, hrs⟩ := h
    have hh := digitChar_injective _ (by omega) _ (by omega) hhigh
    have hl := digitChar_injective _ (by omega) _ (by omega) hlow
    exact ⟨char_eq (by omega), hrs⟩
  · exact absurd h.1.symm hd
  · exact absurd h.1 hc
  · exact absurd h.1 hc
  · exact h

/-- No printed character begins with a quotation mark. -/
theorem escape_ne_quote {c : Char} {r s : List Char} : escape c ++ r ≠ '"' :: s := by
  intro h
  rcases escape_cases c with ⟨e, -, hce⟩ | ⟨-, hce⟩ | ⟨hc, -, hce⟩ <;> rw [hce] at h <;>
    simp only [List.cons_append, List.nil_append, List.cons.injEq] at h
  · exact absurd h.1 (by decide)
  · exact absurd h.1 (by decide)
  · exact hc h.1

theorem body_cancel : ∀ {s t r r' : List Char},
    s.flatMap escape ++ '"' :: r = t.flatMap escape ++ '"' :: r' → s = t ∧ r = r'
  | [], [], _, _, h => ⟨rfl, (List.cons.inj h).2⟩
  | [], d :: t, _, _, h => by
    rw [List.flatMap_cons, List.append_assoc] at h
    exact absurd h.symm escape_ne_quote
  | c :: s, [], _, _, h => by
    rw [List.flatMap_cons, List.append_assoc] at h
    exact absurd h escape_ne_quote
  | c :: s, d :: t, _, _, h => by
    rw [List.flatMap_cons, List.flatMap_cons, List.append_assoc, List.append_assoc] at h
    obtain ⟨rfl, hrest⟩ := escape_cancel h
    obtain ⟨rfl, hr⟩ := body_cancel hrest
    exact ⟨rfl, hr⟩

/-- **A printed string can be read off what it begins.** -/
theorem quote_cancel {s t : String} {r r' : List Char} (h : quote s ++ r = quote t ++ r') :
    s = t ∧ r = r' := by
  simp only [quote, List.cons_append, List.append_assoc, List.nil_append, List.cons.injEq,
    true_and] at h
  obtain ⟨hst, hr⟩ := body_cancel h
  exact ⟨String.toList_injective hst, hr⟩

/-! ## Values are printed without loss -/

/-- The text does not go on like a number. -/
def Ends (r : List Char) : Prop := ∀ c ∈ r.head?, isNumeric c = false

theorem ends_nil : Ends [] := fun c hc => by cases hc

theorem ends_cons {c : Char} {r : List Char} (h : isNumeric c = false) : Ends (c :: r) :=
  fun d hd => by
    cases hd
    exact h

/-- What follows an item. -/
theorem ends_printItems (vs : List Json) (r : List Char) : Ends (printItems false vs ++ r) := by
  cases vs with
  | nil => exact ends_cons (by decide)
  | cons v vs => exact ends_cons (by decide)

theorem ends_printMembers (ms : List (String × Json)) (r : List Char) :
    Ends (printMembers false ms ++ r) := by
  cases ms with
  | nil => exact ends_cons (by decide)
  | cons m ms => exact ends_cons (by decide)

theorem numeric_cancel : ∀ {l m r s : List Char}, (∀ c ∈ l, isNumeric c = true) →
    (∀ c ∈ m, isNumeric c = true) → Ends r → Ends s → l ++ r = m ++ s → l = m ∧ r = s
  | [], [], _, _, _, _, _, _, h => ⟨rfl, h⟩
  | [], d :: m, r, s, _, hm, hr, _, h => by
    have hrd : r = d :: (m ++ s) := h
    have hd := hr d (by rw [hrd]; rfl)
    rw [hm d (by simp)] at hd
    cases hd
  | c :: l, [], r, s, hl, _, _, hs, h => by
    have hsc : s = c :: (l ++ r) := h.symm
    have hc := hs c (by rw [hsc]; rfl)
    rw [hl c (by simp)] at hc
    cases hc
  | c :: l, d :: m, _, _, hl, hm, hr, hs, h => by
    obtain ⟨rfl, hrest⟩ := List.cons.inj h
    obtain ⟨rfl, hrs⟩ := numeric_cancel (fun c hc => hl c (by simp [hc]))
      (fun c hc => hm c (by simp [hc])) hr hs hrest
    exact ⟨rfl, hrs⟩

/-- The kind of a value, and the kind that the first character of its text tells. -/
def kind : Json → ℕ
  | .null => 0
  | .bool true => 1
  | .bool false => 2
  | .num _ => 3
  | .str _ => 4
  | .arr _ => 5
  | .obj _ => 6

def leads (c : Char) : ℕ :=
  if isNumeric c then 3
  else
    match c with
    | 'n' => 0
    | 't' => 1
    | 'f' => 2
    | '"' => 4
    | '[' => 5
    | '{' => 6
    | _ => 7

theorem leads_print (v : Json) (r : List Char) :
    ∃ c rest, print v ++ r = c :: rest ∧ leads c = kind v := by
  cases v with
  | null => exact ⟨_, _, rfl, by decide⟩
  | bool b => cases b <;> exact ⟨_, _, rfl, by decide⟩
  | num n =>
    obtain ⟨c, rest, hn⟩ := List.exists_cons_of_ne_nil n.ne_nil
    exact ⟨c, rest ++ r, by rw [print, hn]; rfl, if_pos (n.numeric c (by simp [hn]))⟩
  | str s => exact ⟨_, _, rfl, rfl⟩
  | arr items => exact ⟨_, _, rfl, rfl⟩
  | obj members => exact ⟨_, _, rfl, rfl⟩

/-- Values with one text are of one kind. -/
theorem kind_eq {v w : Json} {r s : List Char} (h : print v ++ r = print w ++ s) :
    kind v = kind w := by
  obtain ⟨c, _, hc, hv⟩ := leads_print v r
  obtain ⟨d, _, hd, hw⟩ := leads_print w s
  rw [hc, hd] at h
  rw [← hv, ← hw, (List.cons.inj h).1]

/-- No item begins like the end of a list. -/
theorem print_ne_close {v : Json} {r s : List Char} : print v ++ r ≠ ']' :: s := by
  intro h
  obtain ⟨c, _, hc, hv⟩ := leads_print v r
  rw [hc] at h
  rw [(List.cons.inj h).1] at hv
  cases v with
  | bool b => cases b <;> exact absurd hv (by decide)
  | _ => exact absurd hv (by simp [leads, isNumeric, kind])

mutual

/-- **A printed value can be read off what it begins.** -/
theorem print_cancel : ∀ (v w : Json) {r s : List Char}, Ends r → Ends s →
    print v ++ r = print w ++ s → v = w ∧ r = s
  | .null, w, r, s, _, _, h => by
    have hk := kind_eq h
    cases w with
    | null => exact ⟨rfl, List.append_cancel_left h⟩
    | bool b => cases b <;> cases hk
    | _ => cases hk
  | .bool a, w, r, s, _, _, h => by
    have hk := kind_eq h
    cases w with
    | bool b =>
      cases a <;> cases b <;> first | exact ⟨rfl, List.append_cancel_left h⟩ | cases hk
    | _ => cases a <;> cases hk
  | .num m, w, r, s, hr, hs, h => by
    have hk := kind_eq h
    cases w with
    | num n =>
      obtain ⟨htext, hrs⟩ := numeric_cancel m.numeric n.numeric hr hs h
      exact ⟨congrArg Json.num (Number.ext htext), hrs⟩
    | bool b => cases b <;> cases hk
    | _ => cases hk
  | .str a, w, r, s, _, _, h => by
    have hk := kind_eq h
    cases w with
    | str b =>
      obtain ⟨rfl, hrs⟩ := quote_cancel h
      exact ⟨rfl, hrs⟩
    | bool b => cases b <;> cases hk
    | _ => cases hk
  | .arr vs, w, r, s, _, _, h => by
    have hk := kind_eq h
    cases w with
    | arr ws =>
      obtain ⟨rfl, hrs⟩ := printItems_cancel true vs ws (List.cons.inj h).2
      exact ⟨rfl, hrs⟩
    | bool b => cases b <;> cases hk
    | _ => cases hk
  | .obj ms, w, r, s, _, _, h => by
    have hk := kind_eq h
    cases w with
    | obj ns =>
      obtain ⟨rfl, hrs⟩ := printMembers_cancel true ms ns (List.cons.inj h).2
      exact ⟨rfl, hrs⟩
    | bool b => cases b <;> cases hk
    | _ => cases hk

theorem printItems_cancel : ∀ (first : Bool) (vs ws : List Json) {r s : List Char},
    printItems first vs ++ r = printItems first ws ++ s → vs = ws ∧ r = s
  | _, [], [], _, _, h => ⟨rfl, (List.cons.inj h).2⟩
  | true, [], w :: ws, _, _, h => by
    simp only [printItems, separator, if_true, List.nil_append, List.append_assoc] at h
    exact absurd h.symm print_ne_close
  | false, [], w :: ws, _, _, h => by
    simp [printItems, separator] at h
  | true, v :: vs, [], _, _, h => by
    simp only [printItems, separator, if_true, List.nil_append, List.append_assoc] at h
    exact absurd h print_ne_close
  | false, v :: vs, [], _, _, h => by
    simp [printItems, separator] at h
  | first, v :: vs, w :: ws, r, s, h => by
    simp only [printItems, List.append_assoc, List.append_cancel_left_eq] at h
    obtain ⟨rfl, hrest⟩ := print_cancel v w (ends_printItems vs r) (ends_printItems ws s) h
    obtain ⟨rfl, hrs⟩ := printItems_cancel false vs ws hrest
    exact ⟨rfl, hrs⟩

theorem printMembers_cancel : ∀ (first : Bool) (ms ns : List (String × Json)) {r s : List Char},
    printMembers first ms ++ r = printMembers first ns ++ s → ms = ns ∧ r = s
  | _, [], [], _, _, h => ⟨rfl, (List.cons.inj h).2⟩
  | first, [], (k, v) :: ns, _, _, h => by
    cases first <;> simp [printMembers, separator, quote] at h
  | first, (k, v) :: ms, [], _, _, h => by
    cases first <;> simp [printMembers, separator, quote] at h
  | first, (k, v) :: ms, (l, w) :: ns, r, s, h => by
    simp only [printMembers, List.append_assoc, List.append_cancel_left_eq] at h
    obtain ⟨rfl, hvalue⟩ := quote_cancel h
    simp only [List.cons_append, List.append_assoc, List.cons.injEq, true_and] at hvalue
    obtain ⟨rfl, hrest⟩ :=
      print_cancel v w (ends_printMembers ms r) (ends_printMembers ns s) hvalue
    obtain ⟨rfl, hrs⟩ := printMembers_cancel false ms ns hrest
    exact ⟨rfl, hrs⟩

end

theorem print_injective {v w : Json} (h : print v = print w) : v = w :=
  (print_cancel v w (r := []) (s := []) ends_nil ends_nil (by rw [h])).1

/-! ## What is printed of a value -/

/-- `JSON.stringify` of an object given by its properties. -/
def stringifyObject (keys : List String) (get : String → Option Json) : String :=
  String.ofList (print (.obj (select keys fun k => (get k).map (prune keys))))

theorem toList_stringifyObject (keys : List String) (get : String → Option Json) :
    ∃ rest, (stringifyObject keys get).toList = '{' :: rest :=
  ⟨_, by rw [stringifyObject, String.toList_ofList, print]⟩

theorem mem_select {keys : List String} {get : String → Option Json} {k : String} {v : Json} :
    (k, v) ∈ select keys get ↔ k ∈ keys ∧ get k = some v := by
  simp only [select, List.mem_filterMap, Option.map_eq_some_iff, Prod.mk.injEq]
  constructor
  · rintro ⟨_, hk, _, hv, rfl, rfl⟩
    exact ⟨hk, hv⟩
  · rintro ⟨hk, hv⟩
    exact ⟨k, hk, v, hv, rfl, rfl⟩

/-- Two selections agree exactly if the properties of all the names do. -/
theorem select_eq_iff {keys : List String} {get get' : String → Option Json} :
    select keys get = select keys get' ↔ ∀ k ∈ keys, get k = get' k := by
  constructor
  · intro h k hk
    refine Option.ext fun v => ?_
    have hv : (k, v) ∈ select keys get ↔ (k, v) ∈ select keys get' := by rw [h]
    rw [mem_select, mem_select] at hv
    simpa [hk] using hv
  · exact fun h => List.filterMap_congr fun k hk => by rw [h k hk]

/-- Names without a property can be left out. -/
theorem select_filter {keys : List String} {p : String → Bool} {get : String → Option Json}
    (h : ∀ k ∈ keys, p k = false → get k = none) :
    select (keys.filter p) get = select keys get := by
  rw [select, select, List.filterMap_filter]
  refine List.filterMap_congr fun k hk => ?_
  by_cases hp : p k = true
  · exact if_pos hp
  · rw [if_neg hp, h k hk (Bool.eq_false_iff.mpr hp)]
    rfl

/-- **Two objects are printed alike, each with some of the names, exactly if the properties of all
names are pruned alike.** -/
theorem stringifyObject_filter_eq_iff {keys : List String} {p q : String → Bool}
    {get get' : String → Option Json} (h : ∀ k ∈ keys, p k = false → get k = none)
    (h' : ∀ k ∈ keys, q k = false → get' k = none) :
    stringifyObject (keys.filter p) get = stringifyObject (keys.filter q) get' ↔
      ∀ k ∈ keys, (get k).map (prune (keys.filter p)) = (get' k).map (prune (keys.filter q)) := by
  rw [← select_eq_iff, stringifyObject, stringifyObject,
    select_filter fun k hk hp => by rw [h k hk hp]; rfl,
    select_filter fun k hk hq => by rw [h' k hk hq]; rfl]
  constructor
  · exact fun h => Json.obj.inj (print_injective (String.ofList_injective h))
  · exact fun h => congrArg (fun ms => String.ofList (print (.obj ms))) h

end Json

end Foundations
