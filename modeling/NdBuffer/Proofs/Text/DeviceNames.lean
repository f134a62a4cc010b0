import Mathlib.Data.List.Basic
import Mathlib.Data.List.TakeWhile
import Mathlib.Data.Nat.Digits.Defs
import NdBuffer.Names

/-!
# Written names of devices

What is read as a device is given by a grammar (`Device.Named`): one of two words, or a word, a
colon and a numeral (`Text.Numeral`). The text is trimmed first, which is unambiguous
(`Text.trims_iff`), and its letters are made small. Reading accepts what the grammar allows
(`Device.Named.ofName_eq`) and complains about the rest (`Device.ofName_cases`), and the name of
every device is read back as this device.
-/

namespace NdBuffer

namespace Text

variable {cs before rest body ds : List Char} {n : Nat}

/-! ### Blanks and capitals -/

/-- The blanks are the characters that Unicode calls `White_Space`. -/
theorem isBlank_iff {c : Char} : isBlank c = true ↔ c.toNat ∈
    [0x09, 0x0A, 0x0B, 0x0C, 0x0D, 0x20, 0x85, 0xA0, 0x1680, 0x2000, 0x2001, 0x2002, 0x2003, 0x2004,
      0x2005, 0x2006, 0x2007, 0x2008, 0x2009, 0x200A, 0x2028, 0x2029, 0x202F, 0x205F, 0x3000] := by
  simp only [isBlank, blankRanges, List.any_cons, List.any_nil, Bool.or_false, Bool.or_eq_true,
    Bool.and_eq_true, decide_eq_true_eq, List.mem_cons, List.not_mem_nil, or_false]
  omega

/-- Whether a character is one of the letters from `A` to `Z`. -/
def IsCapital (c : Char) : Prop := 'A'.toNat ≤ c.toNat ∧ c.toNat ≤ 'Z'.toNat

instance (c : Char) : Decidable (IsCapital c) := inferInstanceAs (Decidable (_ ∧ _))

/-- The small letters come 32 characters after the capitals. No other character is made small. -/
theorem toNat_toLower (c : Char) :
    c.toLower.toNat = if IsCapital c then c.toNat + 32 else c.toNat := by
  have hcapital : c.val ≥ 'A'.val ∧ c.val ≤ 'Z'.val ↔ IsCapital c :=
    and_congr UInt32.le_iff_toNat_le UInt32.le_iff_toNat_le
  by_cases h : IsCapital c
  · have hZ : c.toNat ≤ 90 := h.2
    have hsmall : c.toLower.val = c.val + 32 := congrArg Char.val (dif_pos (hcapital.mpr h))
    rw [if_pos h, Char.toNat, hsmall]
    exact (UInt32.toNat_add ..).trans (Nat.mod_eq_of_lt (by simp; omega))
  · rw [if_neg h]
    exact congrArg Char.toNat (dif_neg (mt hcapital.mp h))

/-- Making a text small gives the codes of its capitals, and of no other character, 32 more. -/
theorem map_toNat_lower (cs : List Char) :
    (lower cs).map Char.toNat = cs.map fun c => if IsCapital c then c.toNat + 32 else c.toNat := by
  simp [lower, toNat_toLower]

theorem lower_eq_self_iff : lower cs = cs ↔ ∀ c ∈ cs, ¬ IsCapital c :=
  calc lower cs = cs ↔ (lower cs).map Char.toNat = cs.map Char.toNat :=
        (List.map_inj_right fun _ _ => Char.toNat_inj.mp).symm
    _ ↔ ∀ c ∈ cs, (if IsCapital c then c.toNat + 32 else c.toNat) = c.toNat := by
        rw [map_toNat_lower, List.map_inj_left]
    _ ↔ ∀ c ∈ cs, ¬ IsCapital c := by simp

/-! ### Trimming -/

/-- Whether a text is another one with blanks before and behind it, which has itself no blank at
either end. -/
structure Trims (cs body : List Char) : Prop where
  blanks : ∃ before after, cs = before ++ (body ++ after) ∧ (∀ c ∈ before, isBlank c = true) ∧
    ∀ c ∈ after, isBlank c = true
  first : ∀ c ∈ body.head?, isBlank c = false
  last : ∀ c ∈ body.getLast?, isBlank c = false

theorem dropWhile_blanks_append (hb : ∀ c ∈ before, isBlank c = true)
    (hr : ∀ c ∈ rest.head?, isBlank c = false) : (before ++ rest).dropWhile isBlank = rest := by
  rw [List.dropWhile_append_of_pos hb]
  cases rest with
  | nil => rfl
  | cons c rest => simp [hr c rfl]

theorem isBlank_of_mem_head?_dropWhile (cs : List Char) :
    ∀ c ∈ (cs.dropWhile isBlank).head?, isBlank c = false := by
  intro c hc
  have hnot := List.head?_dropWhile_not isBlank cs
  rwa [Option.mem_def.mp hc] at hnot

/-- There is a trimmed text, and it is what `trim` gives. -/
theorem trims_trim (cs : List Char) : Trims cs (trim cs) := by
  have hcs := (cs.takeWhile_append_dropWhile (p := isBlank)).symm
  have hfirst := isBlank_of_mem_head?_dropWhile cs
  have htrim : trim cs = ((cs.dropWhile isBlank).reverse.dropWhile isBlank).reverse := rfl
  rw [htrim]
  generalize cs.dropWhile isBlank = tail at hcs hfirst
  have htail : tail = (tail.reverse.dropWhile isBlank).reverse ++
      (tail.reverse.takeWhile isBlank).reverse := by
    rw [← List.reverse_append, List.takeWhile_append_dropWhile, List.reverse_reverse]
  have hlast := isBlank_of_mem_head?_dropWhile tail.reverse
  refine ⟨⟨_, _, htail ▸ hcs, fun c hc => List.mem_takeWhile_imp hc, fun c hc => ?_⟩, ?_, ?_⟩
  · exact List.mem_takeWhile_imp (List.mem_reverse.mp hc)
  · intro c hc
    refine hfirst c ?_
    rw [htail]
    exact List.mem_head?_append_of_mem_head? hc
  · intro c hc
    rw [List.getLast?_reverse] at hc
    exact hlast c hc

/-- Trimming is unambiguous. -/
theorem trims_iff : Trims cs body ↔ trim cs = body := by
  refine ⟨?_, fun h => h ▸ trims_trim cs⟩
  rintro ⟨⟨before, after, rfl, hbefore, hafter⟩, hfirst, hlast⟩
  cases body with
  | nil =>
    have hall : (before ++ ([] ++ after)).dropWhile isBlank = [] := by
      rw [List.dropWhile_append_of_pos hbefore]
      exact List.dropWhile_eq_nil_iff.mpr hafter
    rw [trim, hall]
    rfl
  | cons c body =>
    have hback : (c :: body ++ after).reverse.dropWhile isBlank = (c :: body).reverse := by
      rw [List.reverse_append]
      refine dropWhile_blanks_append (fun c hc => hafter c (List.mem_reverse.mp hc)) ?_
      rw [List.head?_reverse]
      exact hlast
    have hfront : (before ++ (c :: body ++ after)).dropWhile isBlank = c :: body ++ after :=
      dropWhile_blanks_append hbefore hfirst
    rw [trim, hfront, hback, List.reverse_reverse]

/-! ### Numerals -/

/-- The number that is written with some decimal digits. -/
def decimal (ds : List Char) : Nat := Nat.ofDigits 10 (ds.map fun c => c.toNat - '0'.toNat).reverse

/-- The numerals of a number: digits, of which there is at least one, and a plus sign before them or
not. -/
inductive Numeral : List Char → Nat → Prop
  | digits {ds : List Char} : ds ≠ [] → (∀ c ∈ ds, c.isDigit = true) → Numeral ds (decimal ds)
  | plus {ds : List Char} : ds ≠ [] → (∀ c ∈ ds, c.isDigit = true) →
    Numeral ('+' :: ds) (decimal ds)

theorem ofDigitChars_eq_decimal (ds : List Char) : Nat.ofDigitChars 10 ds 0 = decimal ds := by
  rw [decimal, Nat.ofDigits_eq_foldr, List.foldr_reverse, List.foldl_map, Nat.ofDigitChars]
  simp only [Nat.cast_id, Nat.add_comm]

/-- The count that some digits denote. -/
def readDigits? (ds : List Char) : Option Nat :=
  if ds ≠ [] ∧ ds.all Char.isDigit then Count.checked (Nat.ofDigitChars 10 ds 0) else none

theorem readDigits?_eq_some_iff : readDigits? ds = some n ↔
    (ds ≠ [] ∧ ∀ c ∈ ds, c.isDigit = true) ∧ decimal ds = n ∧ n < Count.limit := by
  rw [readDigits?, Option.ite_none_right_eq_some, List.all_eq_true, ofDigitChars_eq_decimal,
    Count.checked_eq_some_iff]
  constructor
  · rintro ⟨hds, rfl, hlt⟩
    exact ⟨hds, rfl, hlt⟩
  · rintro ⟨hds, rfl, hlt⟩
    exact ⟨hds, rfl, hlt⟩

theorem readCount?_plus (ds : List Char) : readCount? ('+' :: ds) = readDigits? ds := rfl

theorem readCount?_of_ne_plus (h : ∀ ds, cs ≠ '+' :: ds) : readCount? cs = readDigits? cs := by
  rw [readCount?, readDigits?]
  exact h

theorem readCount?_eq_some_iff : readCount? cs = some n ↔ Numeral cs n ∧ n < Count.limit := by
  by_cases hplus : ∃ ds, cs = '+' :: ds
  · obtain ⟨ds, rfl⟩ := hplus
    rw [readCount?_plus, readDigits?_eq_some_iff]
    constructor
    · rintro ⟨⟨hne, hds⟩, rfl, hlt⟩
      exact ⟨.plus hne hds, hlt⟩
    · rintro ⟨N, hlt⟩
      cases N with
      | digits _ hds => exact absurd (hds '+' List.mem_cons_self) (by decide)
      | plus hne hds => exact ⟨⟨hne, hds⟩, rfl, hlt⟩
  · rw [readCount?_of_ne_plus (not_exists.mp hplus), readDigits?_eq_some_iff]
    constructor
    · rintro ⟨⟨hne, hds⟩, rfl, hlt⟩
      exact ⟨.digits hne hds, hlt⟩
    · rintro ⟨N, hlt⟩
      cases N with
      | digits hne hds => exact ⟨⟨hne, hds⟩, rfl, hlt⟩
      | plus _ _ => exact absurd ⟨_, rfl⟩ hplus

end Text

namespace Device

open Text

variable {name : List Char} {d : Device} {written : String}

/-- The names of devices, in small letters. -/
inductive Named : List Char → Device → Prop
  | cpu : Named "cpu".toList .cpu
  | cuda : Named "cuda".toList (.cuda 0)
  | index {numeral : List Char} {i : UInt64} : Numeral numeral i.toNat →
    Named ("cuda:".toList ++ numeral) (.cuda i)

/-- How the complaint about a name begins that is none. It depends on whether the name is one of an
accelerator up to the colon. -/
def complaint (name : List Char) : String :=
  if "cuda:".toList <+: name then "invalid CUDA device index in '" else "unknown device '"

theorem splitAtColon_of_not_mem (h : ':' ∉ name) : splitAtColon name = (name, none) := by
  have hall : ∀ c ∈ name, decide (c ≠ ':') = true := fun c hc =>
    decide_eq_true fun heq => h (heq ▸ hc)
  rw [splitAtColon, List.takeWhile_eq_self_iff.mpr hall, List.dropWhile_eq_nil_iff.mpr hall]
  rfl

theorem splitAtColon_append {kind : List Char} (h : ':' ∉ kind) (rest : List Char) :
    splitAtColon (kind ++ ':' :: rest) = (kind, some rest) := by
  have hall : ∀ c ∈ kind, decide (c ≠ ':') = true := fun c hc =>
    decide_eq_true fun heq => h (heq ▸ hc)
  rw [splitAtColon, List.takeWhile_append_of_pos hall, List.dropWhile_append_of_pos hall]
  simp

/-- A name has no colon, or it is split at its first one. -/
theorem exists_of_mem_colon (h : ':' ∈ name) :
    ∃ kind rest, ':' ∉ kind ∧ name = kind ++ ':' :: rest :=
  List.eq_append_cons_of_mem h |>.imp fun _ ⟨r, hr, hn⟩ => ⟨r, hn, hr⟩

theorem splitAtColon_cuda (rest : List Char) :
    splitAtColon ("cuda:".toList ++ rest) = ("cuda".toList, some rest) := by
  have hkind : ':' ∉ "cuda".toList := by decide
  exact splitAtColon_append hkind rest

/-- What stands behind the colon of an accelerator is read as a numeral. -/
theorem ofName_cuda_of_some {rest : List Char} {n : Nat} (h : readCount? rest = some n)
    (written : String) : ofName ("cuda:".toList ++ rest) written = .ok (.cuda (.ofNat n)) := by
  simp only [ofName, splitAtColon_cuda, if_true, h]

theorem ofName_cuda_of_none {rest : List Char} (h : readCount? rest = none) (written : String) :
    ofName ("cuda:".toList ++ rest) written =
      .error (.parse ("invalid CUDA device index in '" ++ written ++ "'")) := by
  simp only [ofName, splitAtColon_cuda, if_true, h, toString]

theorem Named.ofName_eq (N : Named name d) (written : String) : ofName name written = .ok d := by
  cases N with
  | cpu => rfl
  | cuda => rfl
  | @index numeral i N =>
    rw [ofName_cuda_of_some (readCount?_eq_some_iff.mpr ⟨N, i.toNat_lt⟩), UInt64.ofNat_toNat]

/-- Reading a name. It is read as a device if the grammar says so, and otherwise there is a
complaint that quotes what was written. -/
theorem ofName_cases (name : List Char) (written : String) :
    (∃ d, Named name d) ∨
      ofName name written = .error (.parse (complaint name ++ written ++ "'")) := by
  by_cases hcuda : "cuda:".toList <+: name
  · obtain ⟨rest, rfl⟩ := hcuda
    cases hread : readCount? rest with
    | none =>
      rw [complaint, if_pos (List.prefix_append ..)]
      exact .inr (ofName_cuda_of_none hread written)
    | some n =>
      obtain ⟨N, hlt⟩ := readCount?_eq_some_iff.mp hread
      refine .inl ⟨.cuda (.ofNat n), .index ?_⟩
      rwa [UInt64.toNat_ofNat_of_lt' hlt]
  · rw [complaint, if_neg hcuda]
    by_cases hcolon : ':' ∈ name
    · obtain ⟨kind, rest, hkind, rfl⟩ := exists_of_mem_colon hcolon
      have hne : kind ≠ "cuda".toList := by
        rintro rfl
        exact hcuda ⟨rest, rfl⟩
      refine .inr ?_
      simp only [ofName, splitAtColon_append hkind, if_neg hne, toString]
    · rw [ofName, splitAtColon_of_not_mem hcolon]
      simp only []
      split
      · rename_i hname
        exact .inl ⟨.cpu, hname ▸ .cpu⟩
      · split
        · rename_i hname
          exact .inl ⟨.cuda 0, hname ▸ .cuda⟩
        · exact .inr rfl

/-! ### Names that are written -/

/-- A character that trimming and lowering leave as it is. -/
def Plain (c : Char) : Prop := isBlank c = false ∧ ¬ IsCapital c

instance (c : Char) : Decidable (Plain c) := inferInstanceAs (Decidable (_ ∧ _))

theorem plain_of_isDigit {c : Char} (h : c.isDigit = true) : Plain c := by
  have hcode : 48 ≤ c.toNat ∧ c.toNat ≤ 57 := Char.isDigit_iff_toNat.mp h
  constructor
  · rw [Bool.eq_false_iff, Ne, isBlank_iff]
    simp only [List.mem_cons, List.not_mem_nil, or_false]
    omega
  · rintro ⟨hA, -⟩
    exact absurd (Nat.le_trans hA hcode.2) (by decide)

theorem trim_of_plain {cs : List Char} (h : ∀ c ∈ cs, Plain c) : trim cs = cs :=
  trims_iff.mp
    ⟨⟨[], [], by simp, nofun, nofun⟩, fun c hc => (h c (List.mem_of_mem_head? hc)).1,
      fun c hc => (h c (List.mem_of_mem_getLast? hc)).1⟩

theorem lower_of_plain {cs : List Char} (h : ∀ c ∈ cs, Plain c) : lower cs = cs :=
  lower_eq_self_iff.mpr fun c hc => (h c hc).2

theorem toList_name_cuda (i : UInt64) :
    (cuda i).name.toList = "cuda:".toList ++ Nat.toDigits 10 i.toNat := by
  simp [name, Nat.repr]

theorem named_name (d : Device) : Named d.name.toList d := by
  cases d with
  | cpu => exact .cpu
  | cuda i =>
    rw [toList_name_cuda]
    exact .index (readCount?_eq_some_iff.mp (readCount?_toDigits i.toNat_lt)).1

theorem plain_of_all {cs : List Char} (h : cs.all (fun c => decide (Plain c)) = true) {c : Char}
    (hc : c ∈ cs) : Plain c :=
  of_decide_eq_true (List.all_eq_true.mp h c hc)

theorem plain_of_mem_name {c : Char} (hc : c ∈ d.name.toList) : Plain c := by
  cases d with
  | cpu =>
    have hall : "cpu".toList.all (fun c => decide (Plain c)) = true := by decide
    exact plain_of_all hall hc
  | cuda i =>
    have hall : "cuda:".toList.all (fun c => decide (Plain c)) = true := by decide
    rw [toList_name_cuda] at hc
    rcases List.mem_append.mp hc with hc | hc
    · exact plain_of_all hall hc
    · exact plain_of_isDigit (Nat.isDigit_of_mem_toDigits (by decide) (by decide) hc)

theorem parse_name (d : Device) : parse d.name = .ok d := by
  have hplain : ∀ c ∈ d.name.toList, Plain c := fun c => plain_of_mem_name
  rw [parse, trim_of_plain hplain, lower_of_plain hplain]
  exact (named_name d).ofName_eq _

/-- Reading devices. A text is read as a device exactly if it is a name of this device once it is
trimmed and its capitals are made small; of any other text it is said what is wrong with it, and the
text is quoted as it was written. The name of every device is read as this device. -/
theorem parsing :
    (∀ s : String, ∃ body, Trims s.toList body ∧
      (∀ d, parse s = .ok d ↔ Named (lower body) d) ∧
      ((∀ d, ¬ Named (lower body) d) →
        parse s = .error (.parse (complaint (lower body) ++ s ++ "'")))) ∧
    ∀ d : Device, parse d.name = .ok d := by
  refine ⟨fun s => ⟨trim s.toList, trims_trim _, fun d => ⟨fun hd => ?_, fun N => ?_⟩, ?_⟩,
    parse_name⟩
  · rcases ofName_cases (lower (trim s.toList)) s with ⟨d', N⟩ | he
    · cases hd.symm.trans (N.ofName_eq s)
      exact N
    · cases hd.symm.trans he
  · exact N.ofName_eq s
  · intro hnot
    exact (ofName_cases _ s).resolve_left (not_exists.mpr hnot)

example : parse "\tCUDA:+007 " = .ok (.cuda 7) := by decide

end Device

end NdBuffer
