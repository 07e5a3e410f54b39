import Mathlib
import Formulary.Text.Quoted

namespace Formulary.Text

/-- The bytes that make up a unit. -/
inductive Encodes : List UInt8 → ByteUnit → Prop where
  | one {a : UInt8} {c : Char} (h : a < 0x80) (hc : c = Char.ofNat a.toNat) : Encodes [a] (.char c)
  | two {a b : UInt8} {c : Char} (h : isTwoByte a b = true)
    (hc : c = Char.ofNat (joinPayload (a.toNat - 0xc0) [b])) : Encodes [a, b] (.char c)
  | three {a b d : UInt8} {c : Char} (h : isThreeByte a b d = true)
    (hc : c = Char.ofNat (joinPayload (a.toNat - 0xe0) [b, d])) : Encodes [a, b, d] (.char c)
  | four {a b d e : UInt8} {c : Char} (h : isFourByte a b d e = true)
    (hc : c = Char.ofNat (joinPayload (a.toNat - 0xf0) [b, d, e])) : Encodes [a, b, d, e] (.char c)
  | stray {a : UInt8} (h : ¬a < 0x80) : Encodes [a] (.stray a)

theorem exists_units_cons (a : UInt8) (rest : List UInt8) :
    ∃ chunk more u, a :: rest = chunk ++ more ∧ Encodes chunk u ∧
      units (a :: rest) = u :: units more := by
  rw [units.eq_def]
  dsimp only
  split
  · rename_i h
    exact ⟨[a], rest, _, rfl, .one h rfl, rfl⟩
  rename_i h
  split
  · exact ⟨[a], [], _, rfl, .stray h, by rw [units]⟩
  rename_i b rest₂
  split
  · rename_i htwo
    exact ⟨[a, b], rest₂, _, rfl, .two htwo rfl, rfl⟩
  split
  · exact ⟨[a], [b], _, rfl, .stray h, rfl⟩
  rename_i c rest₃
  split
  · rename_i hthree
    exact ⟨[a, b, c], rest₃, _, rfl, .three hthree rfl, rfl⟩
  split
  · exact ⟨[a], [b, c], _, rfl, .stray h, rfl⟩
  rename_i d rest₄
  split
  · rename_i hfour
    exact ⟨[a, b, c, d], rest₄, _, rfl, .four hfour rfl, rfl⟩
  · exact ⟨[a], b :: c :: d :: rest₄, _, rfl, .stray h, rfl⟩

theorem toNat_ofNat_of_valid {n : Nat} (h : n < 0xd800 ∨ (0xdfff < n ∧ n < 0x110000)) :
    (Char.ofNat n).toNat = n := by
  rw [Char.ofNat, dif_pos h]
  rfl

theorem isContinuation_iff {b : UInt8} :
    isContinuation b = true ↔ 0x80 ≤ b.toNat ∧ b.toNat ≤ 0xbf := by
  simp [isContinuation, UInt8.le_iff_toNat_le]

theorem Encodes.toNat_eq {bytes : List UInt8} {c : Char} (h : Encodes bytes (.char c)) :
    (∃ a, bytes = [a] ∧ c.toNat = a.toNat ∧ a.toNat < 0x80) ∨
    (∃ a b, bytes = [a, b] ∧ c.toNat = (a.toNat - 0xc0) * 64 + (b.toNat - 0x80) ∧
      0xc2 ≤ a.toNat ∧ a.toNat ≤ 0xdf ∧ 0x80 ≤ b.toNat ∧ b.toNat ≤ 0xbf) ∨
    (∃ a b d, bytes = [a, b, d] ∧
      c.toNat = ((a.toNat - 0xe0) * 64 + (b.toNat - 0x80)) * 64 + (d.toNat - 0x80) ∧
      0xe0 ≤ a.toNat ∧ a.toNat ≤ 0xef ∧ 0x80 ≤ b.toNat ∧ b.toNat ≤ 0xbf ∧ 0x80 ≤ d.toNat ∧
      d.toNat ≤ 0xbf ∧ (a.toNat = 0xe0 → 0xa0 ≤ b.toNat)) ∨
    ∃ a b d e, bytes = [a, b, d, e] ∧
      c.toNat = (((a.toNat - 0xf0) * 64 + (b.toNat - 0x80)) * 64 + (d.toNat - 0x80)) * 64 +
        (e.toNat - 0x80) ∧
      0xf0 ≤ a.toNat ∧ 0x80 ≤ b.toNat ∧ b.toNat ≤ 0xbf ∧ 0x80 ≤ d.toNat ∧ d.toNat ≤ 0xbf ∧
      0x80 ≤ e.toNat ∧ e.toNat ≤ 0xbf ∧ (a.toNat = 0xf0 → 0x90 ≤ b.toNat) := by
  cases h with
  | @one a _ h hc =>
      have ha : a.toNat < 0x80 := by simpa [UInt8.lt_iff_toNat_lt] using h
      exact .inl ⟨a, rfl, hc ▸ toNat_ofNat_of_valid (by omega), ha⟩
  | @two a b _ h hc =>
      simp only [isTwoByte, Bool.and_eq_true, decide_eq_true_eq, isContinuation_iff,
        UInt8.le_iff_toNat_le, UInt8.reduceToNat] at h
      simp only [joinPayload, List.foldl_cons, List.foldl_nil] at hc
      have hvalue := hc ▸ toNat_ofNat_of_valid (by omega)
      exact .inr (.inl ⟨a, b, rfl, hvalue, h.1.1, h.1.2, h.2⟩)
  | @three a b d _ h hc =>
      simp only [isThreeByte, Bool.and_eq_true, Bool.or_eq_true, bne_iff_ne, decide_eq_true_eq,
        isContinuation_iff, UInt8.le_iff_toNat_le, UInt8.reduceToNat, ne_eq, ← UInt8.toNat_inj] at h
      simp only [joinPayload, List.foldl_cons, List.foldl_nil] at hc
      have hvalue := hc ▸ toNat_ofNat_of_valid (by omega)
      exact .inr (.inr (.inl ⟨a, b, d, rfl, hvalue, by omega⟩))
  | @four a b d e _ h hc =>
      simp only [isFourByte, Bool.and_eq_true, Bool.or_eq_true, bne_iff_ne, decide_eq_true_eq,
        isContinuation_iff, UInt8.le_iff_toNat_le, UInt8.reduceToNat, ne_eq, ← UInt8.toNat_inj] at h
      simp only [joinPayload, List.foldl_cons, List.foldl_nil] at hc
      have hvalue := hc ▸ toNat_ofNat_of_valid (by omega)
      exact .inr (.inr (.inr ⟨a, b, d, e, rfl, hvalue, by omega⟩))

theorem Encodes.length_pos {bytes : List UInt8} {u : ByteUnit} (h : Encodes bytes u) :
    0 < bytes.length := by
  cases h <;> simp

theorem escapeChar_cases (c : Char) :
    (escapeChar '"' c = [c] ∧ c ≠ '"' ∧ c ≠ '\\') ∨
    (∃ k, escapeChar '"' c = ['\\', k] ∧ simpleEscape? '"' k = some c) ∨
    (escapeChar '"' c = '\\' :: 'x' :: hexDigits 2 c.toNat ∧ c.toNat < 0x80) ∨
    (escapeChar '"' c = '\\' :: 'u' :: hexDigits 4 c.toNat ∧ c.toNat < 0x10000) ∨
    escapeChar '"' c = '\\' :: 'U' :: hexDigits 8 c.toNat := by
  unfold escapeChar
  split
  · rename_i h
    simp only [Bool.or_eq_true, beq_iff_eq] at h
    rcases h with rfl | rfl
    · exact .inr (.inl ⟨_, rfl, rfl⟩)
    · exact .inr (.inl ⟨_, rfl, rfl⟩)
  rename_i h
  simp only [Bool.or_eq_true, beq_iff_eq, not_or] at h
  split
  · exact .inl ⟨rfl, h⟩
  have hchar : ∀ n, c.toNat = n → c = Char.ofNat n := by
    rintro n rfl
    exact (Char.ofNat_toNat c).symm
  split
  · rename_i hn
    exact .inr (.inl ⟨_, rfl, (hchar _ hn).symm ▸ rfl⟩)
  · rename_i hn
    exact .inr (.inl ⟨_, rfl, (hchar _ hn).symm ▸ rfl⟩)
  · rename_i hn
    exact .inr (.inl ⟨_, rfl, (hchar _ hn).symm ▸ rfl⟩)
  · rename_i hn
    exact .inr (.inl ⟨_, rfl, (hchar _ hn).symm ▸ rfl⟩)
  · rename_i hn
    exact .inr (.inl ⟨_, rfl, (hchar _ hn).symm ▸ rfl⟩)
  · rename_i hn
    exact .inr (.inl ⟨_, rfl, (hchar _ hn).symm ▸ rfl⟩)
  · rename_i hn
    exact .inr (.inl ⟨_, rfl, (hchar _ hn).symm ▸ rfl⟩)
  · split
    · rename_i hsmall
      simp only [Bool.or_eq_true, decide_eq_true_eq, beq_iff_eq] at hsmall
      exact .inr (.inr (.inl ⟨rfl, by omega⟩))
    split
    · rename_i hsmall
      exact .inr (.inr (.inr (.inl ⟨rfl, hsmall⟩)))
    · exact .inr (.inr (.inr (.inr rfl)))

/-- A stray byte is no character by itself. -/
def ByteUnit.IsProper : ByteUnit → Prop
  | .char _ => True
  | .stray b => 0x80 ≤ b.toNat

/-- The number of digits behind a letter that announces some. -/
def escapeWidth? : Char → Option Nat
  | 'x' => some 2
  | 'u' => some 4
  | 'U' => some 8
  | _ => none

/-- The unit of a number behind such a letter. Two digits may tell a stray byte. -/
def codedUnit (letter : Char) (n : Nat) : ByteUnit :=
  if letter = 'x' ∧ 0x80 ≤ n then .stray (UInt8.ofNat n) else .char (Char.ofNat n)

/-- The ways in which a unit is escaped: not at all, by a letter of its own, or by its number. -/
inductive Escapes : ByteUnit → List Char → Prop where
  | plain {c : Char} (hquote : c ≠ '"') (hslash : c ≠ '\\') : Escapes (.char c) [c]
  | simple {c k : Char} (h : simpleEscape? '"' k = some c) : Escapes (.char c) ['\\', k]
  | coded {letter : Char} {width n : Nat} {u : ByteUnit} (hwidth : escapeWidth? letter = some width)
    (hn : n < 16 ^ width) (hu : u = codedUnit letter n) :
    Escapes u ('\\' :: letter :: hexDigits width n)

theorem codedUnit_of_lt {letter : Char} {c : Char} (h : letter = 'x' → c.toNat < 0x80) :
    .char c = codedUnit letter c.toNat := by
  rw [codedUnit, if_neg (fun hstray => absurd (h hstray.1) (by omega)), Char.ofNat_toNat]

theorem toNat_lt (c : Char) : c.toNat < 0x110000 := by
  rcases c.valid with h | h
  · exact Nat.lt_trans h (by decide)
  · exact h.2

theorem escapes_escapeUnit {u : ByteUnit} (hu : u.IsProper) : Escapes u (escapeUnit u) := by
  cases u with
  | stray b =>
      refine .coded rfl (UInt8.toNat_lt b) ?_
      rw [codedUnit, if_pos ⟨rfl, hu⟩, UInt8.ofNat_toNat]
  | char c =>
      rw [escapeUnit]
      obtain ⟨heq, hquote, hslash⟩ | ⟨k, heq, hk⟩ | ⟨heq, hc⟩ | ⟨heq, hc⟩ | heq := escapeChar_cases c
      · exact heq ▸ .plain hquote hslash
      · exact heq ▸ .simple hk
      · exact heq ▸ .coded rfl (by omega) (codedUnit_of_lt fun _ => hc)
      · exact heq ▸ .coded rfl (by omega) (codedUnit_of_lt fun h => absurd h (by decide))
      · have hc := toNat_lt c
        exact heq ▸ .coded rfl (by omega) (codedUnit_of_lt fun h => absurd h (by decide))

theorem Escapes.ne_quote {u : ByteUnit} {text tail rest : List Char} (hu : Escapes u text) :
    text ++ tail ≠ '"' :: rest := by
  intro h
  cases hu with
  | plain hquote => exact hquote (List.cons.inj h).1
  | simple | coded => exact absurd (List.cons.inj h).1 (by decide)

theorem units_isProper (bytes : List UInt8) : ∀ u ∈ units bytes, u.IsProper := by
  induction hlength : bytes.length using Nat.strong_induction_on generalizing bytes with
  | _ n ih =>
      cases bytes with
      | nil =>
          rw [units]
          exact List.forall_mem_nil _
      | cons a rest =>
          obtain ⟨chunk, more, u, hbytes, hencodes, hunits⟩ := exists_units_cons a rest
          have hshorter : more.length < n := by
            rw [← hlength, hbytes, List.length_append]
            have hpos := hencodes.length_pos
            omega
          rw [hunits]
          refine List.forall_mem_cons.2 ⟨?_, ih _ hshorter more rfl⟩
          cases hencodes with
          | stray h => simpa [ByteUnit.IsProper, UInt8.lt_iff_toNat_lt] using h
          | one | two | three | four => trivial

end Formulary.Text
