/-
Numbers and texts in bytes. Nothing here mentions the program.

- `fromLe`, `toLe`: the number that bytes stand for, least significant first, and its bytes.
- `utf8`: the text that bytes stand for, or the index from which they are no text; where an unexpected byte was found the
  length of the invalid sequence as well, and nothing when the bytes just end.

Both directions of the numbers are inverse (`fromLe_toLe`, `toLe_fromLe`), and an ASCII text stands in its own bytes only
(`utf8_eq_ascii_iff`).
-/
import Mathlib.Tactic
import Mathlib.Data.Nat.Digits.Defs

namespace ObsChain.Bytes

/-! ## Little-endian numbers -/

def fromLe (bytes : List UInt8) : ℕ := Nat.ofDigits 256 (bytes.map UInt8.toNat)

/-- the lowest bytes of a number -/
def toLe : ℕ → ℕ → List UInt8
  | 0, _ => []
  | width + 1, n => UInt8.ofNat n :: toLe width (n / 256)

theorem fromLe_cons (b : UInt8) (bytes : List UInt8) : fromLe (b :: bytes) = b.toNat + 256 * fromLe bytes := by
  simp [fromLe, Nat.ofDigits_cons]

@[simp] theorem length_toLe (width n : ℕ) : (toLe width n).length = width := by
  induction width generalizing n with
  | zero => rfl
  | succ width ih => rw [toLe, List.length_cons, ih]

theorem fromLe_lt (bytes : List UInt8) : fromLe bytes < 256 ^ bytes.length := by
  induction bytes with
  | nil => exact Nat.one_pos
  | cons b bytes ih =>
    have hb := b.toNat_lt
    rw [fromLe_cons, List.length_cons, pow_succ]
    omega

/-- a number that fits is read back -/
theorem fromLe_toLe {width n : ℕ} (h : n < 256 ^ width) : fromLe (toLe width n) = n := by
  induction width generalizing n with
  | zero =>
    rw [pow_zero, Nat.lt_one_iff] at h
    rw [h]
    rfl
  | succ width ih =>
    have hrest : n / 256 < 256 ^ width := by
      rw [Nat.div_lt_iff_lt_mul (by omega), ← pow_succ]
      exact h
    rw [toLe, fromLe_cons, ih hrest, UInt8.toNat_ofNat']
    omega

/-- bytes are written back -/
theorem toLe_fromLe (bytes : List UInt8) : toLe bytes.length (fromLe bytes) = bytes := by
  induction bytes with
  | nil => rfl
  | cons b bytes ih =>
    have hb := b.toNat_lt
    have hhead : UInt8.ofNat (b.toNat + 256 * fromLe bytes) = b := by
      apply UInt8.toNat_inj.1
      rw [UInt8.toNat_ofNat']
      omega
    have hrest : (b.toNat + 256 * fromLe bytes) / 256 = fromLe bytes := by omega
    rw [List.length_cons, fromLe_cons, toLe, hhead, hrest, ih]

/-! ## UTF-8 -/

/-- where bytes stop being a text, and how many of them are invalid unless there are too few -/
structure Utf8Error where
  validUpTo : ℕ
  errorLen : Option ℕ
deriving DecidableEq, Repr

def Utf8Error.display (e : Utf8Error) : String :=
  match e.errorLen with
  | some len => "invalid utf-8 sequence of " ++ toString len ++ " bytes from index " ++ toString e.validUpTo
  | none => "incomplete utf-8 byte sequence from index " ++ toString e.validUpTo

def isContinuation (b : UInt8) : Bool := 0x80 ≤ b.toNat && b.toNat ≤ 0xBF

/-- the second of three bytes: no overlong form and no surrogate -/
def isSecondOfThree (a b : UInt8) : Bool :=
  isContinuation b && (a.toNat != 0xE0 || 0xA0 ≤ b.toNat) && (a.toNat != 0xED || b.toNat ≤ 0x9F)

/-- the second of four bytes: no overlong form and nothing past the last code point -/
def isSecondOfFour (a b : UInt8) : Bool :=
  isContinuation b && (a.toNat != 0xF0 || 0x90 ≤ b.toNat) && (a.toNat != 0xF4 || b.toNat ≤ 0x8F)

/-- the characters from an index on -/
def utf8From (index : ℕ) : List UInt8 → Except Utf8Error (List Char)
  | [] => .ok []
  | a :: rest =>
    if a.toNat < 0x80 then (utf8From (index + 1) rest).map (Char.ofNat a.toNat :: ·)
    else if 0xC2 ≤ a.toNat ∧ a.toNat ≤ 0xDF then
      match rest with
      | [] => .error ⟨index, none⟩
      | b :: rest =>
        if isContinuation b then
          (utf8From (index + 2) rest).map (Char.ofNat ((a.toNat - 0xC0) * 64 + (b.toNat - 0x80)) :: ·)
        else .error ⟨index, some 1⟩
    else if 0xE0 ≤ a.toNat ∧ a.toNat ≤ 0xEF then
      match rest with
      | [] => .error ⟨index, none⟩
      | b :: rest =>
        if !isSecondOfThree a b then .error ⟨index, some 1⟩
        else
          match rest with
          | [] => .error ⟨index, none⟩
          | c :: rest =>
            if isContinuation c then
              (utf8From (index + 3) rest).map
                (Char.ofNat ((a.toNat - 0xE0) * 4096 + (b.toNat - 0x80) * 64 + (c.toNat - 0x80)) :: ·)
            else .error ⟨index, some 2⟩
    else if 0xF0 ≤ a.toNat ∧ a.toNat ≤ 0xF4 then
      match rest with
      | [] => .error ⟨index, none⟩
      | b :: rest =>
        if !isSecondOfFour a b then .error ⟨index, some 1⟩
        else
          match rest with
          | [] => .error ⟨index, none⟩
          | c :: rest =>
            if !isContinuation c then .error ⟨index, some 2⟩
            else
              match rest with
              | [] => .error ⟨index, none⟩
              | d :: rest =>
                if isContinuation d then
                  (utf8From (index + 4) rest).map (Char.ofNat ((a.toNat - 0xF0) * 262144 + (b.toNat - 0x80) * 4096 +
                    (c.toNat - 0x80) * 64 + (d.toNat - 0x80)) :: ·)
                else .error ⟨index, some 3⟩
    else .error ⟨index, some 1⟩

def utf8 (bytes : List UInt8) : Except Utf8Error (List Char) := utf8From 0 bytes

/-- the bytes of an ASCII text -/
def ascii (cs : List Char) : List UInt8 := cs.map fun c => UInt8.ofNat c.toNat

/-- a code point is kept by its character -/
theorem toNat_ofNat {n : ℕ} (h : n.isValidChar) : (Char.ofNat n).toNat = n := by
  rw [Char.ofNat, dif_pos h]
  rfl

theorem of_map_cons {α ε : Type} {x : Except ε (List α)} {a c : α} {cs : List α} (h : x.map (a :: ·) = .ok (c :: cs)) :
    a = c ∧ x = .ok cs := by
  cases x with
  | error e => cases h
  | ok l =>
    obtain ⟨rfl, rfl⟩ := List.cons.inj (Except.ok.inj h)
    exact ⟨rfl, rfl⟩

theorem map_cons_ne_nil {α ε : Type} {x : Except ε (List α)} {a : α} (h : x.map (a :: ·) = .ok []) : False := by
  cases x with
  | error e => cases h
  | ok l => cases h

/-- some bytes are some characters -/
theorem utf8From_eq_nil {index : ℕ} {bytes : List UInt8} (h : utf8From index bytes = .ok []) : bytes = [] := by
  cases bytes with
  | nil => rfl
  | cons a rest =>
    exfalso
    rw [utf8From.eq_def] at h
    dsimp only at h
    repeat' split at h
    all_goals first
      | exact map_cons_ne_nil h
      | cases h

/-- characters beyond ASCII come from more than one byte, and no other bytes give an ASCII one -/
theorem utf8From_cons_ascii {index : ℕ} {bytes : List UInt8} {c : Char} {cs : List Char} (hc : c.toNat < 0x80)
    (h : utf8From index bytes = .ok (c :: cs)) :
    ∃ rest, bytes = UInt8.ofNat c.toNat :: rest ∧ utf8From (index + 1) rest = .ok cs := by
  cases bytes with
  | nil => cases h
  | cons a rest =>
    rw [utf8From.eq_def] at h
    dsimp only at h
    split_ifs at h with hone htwo hthree hfour
    · obtain ⟨rfl, hrest⟩ := of_map_cons h
      rw [toNat_ofNat (.inl (by omega)), UInt8.ofNat_toNat]
      exact ⟨rest, rfl, hrest⟩
    · -- two bytes
      split at h
      · cases h
      · next b rest =>
        split_ifs at h with hb
        obtain ⟨rfl, -⟩ := of_map_cons h
        simp only [isContinuation, Bool.and_eq_true, decide_eq_true_eq] at hb
        rw [toNat_ofNat (.inl (by omega))] at hc
        omega
    · -- three bytes
      split at h
      · cases h
      · next b rest =>
        split_ifs at h with hb
        split at h
        · cases h
        · next d rest =>
          split_ifs at h with hd
          obtain ⟨rfl, -⟩ := of_map_cons h
          simp only [isSecondOfThree, isContinuation, Bool.not_eq_true', Bool.not_eq_false, Bool.and_eq_true,
            decide_eq_true_eq, Bool.or_eq_true, bne_iff_ne, ne_eq] at hb hd
          rw [toNat_ofNat (show _ ∨ _ by omega)] at hc
          omega
    · -- four bytes
      split at h
      · cases h
      · next b rest =>
        split_ifs at h with hb
        split at h
        · cases h
        · next d rest =>
          split_ifs at h with hd
          split at h
          · cases h
          · next e rest =>
            split_ifs at h with he
            obtain ⟨rfl, -⟩ := of_map_cons h
            simp only [isSecondOfFour, isContinuation, Bool.not_eq_true', Bool.not_eq_false, Bool.and_eq_true,
              decide_eq_true_eq, Bool.or_eq_true, bne_iff_ne, ne_eq] at hb hd he
            rw [toNat_ofNat (show _ ∨ _ by omega)] at hc
            omega

/-- **An ASCII text** is read from its own bytes, and from no others. -/
theorem utf8_eq_ascii_iff {bytes : List UInt8} {cs : List Char} (hcs : ∀ c ∈ cs, c.toNat < 0x80) :
    utf8 bytes = .ok cs ↔ bytes = ascii cs := by
  suffices hfrom : ∀ index, utf8From index bytes = .ok cs ↔ bytes = ascii cs from hfrom 0
  induction cs generalizing bytes with
  | nil =>
    intro index
    constructor
    · intro h
      rw [utf8From_eq_nil h]
      rfl
    · rintro rfl
      rfl
  | cons c cs ih =>
    have hc : c.toNat < 0x80 := hcs c List.mem_cons_self
    have ih := fun bytes => @ih bytes fun c' hc' => hcs c' (List.mem_cons_of_mem c hc')
    intro index
    constructor
    · intro h
      obtain ⟨rest, rfl, hrest⟩ := utf8From_cons_ascii hc h
      rw [(ih rest (index + 1)).1 hrest]
      rfl
    · rintro rfl
      have hbyte : (UInt8.ofNat c.toNat).toNat = c.toNat := by
        rw [UInt8.toNat_ofNat']
        omega
      rw [ascii, List.map_cons, utf8From.eq_def]
      dsimp only
      rw [hbyte, if_pos hc, ← ascii, (ih (ascii cs) (index + 1)).2 rfl, Char.ofNat_toNat]
      rfl

end ObsChain.Bytes
