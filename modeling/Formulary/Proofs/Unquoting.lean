import Formulary.Proofs.Quoting
import Formulary.Token.Lexer

namespace Formulary.Text

theorem toList_loop (bytes : ByteArray) (i : Nat) (r : List UInt8) :
    ByteArray.toList.loop bytes i r = r.reverse ++ bytes.data.toList.drop i := by
  fun_induction ByteArray.toList.loop bytes i r with
  | case1 i r h ih =>
      have hsize : i < bytes.data.toList.length := h
      have hget : bytes.get! i = bytes.data.toList[i] := getElem!_pos bytes.data i h
      rw [ih, List.drop_eq_getElem_cons hsize, hget]
      simp
  | case2 i r h =>
      have hsize : bytes.data.toList.length ≤ i := Nat.not_lt.1 h
      rw [List.drop_eq_nil_of_le hsize, List.append_nil]

theorem encodeUtf8_singleton (c : Char) :
    encodeUtf8 (String.singleton c) = String.utf8EncodeChar c := by
  have hbytes : (String.singleton c).toUTF8 = (String.utf8EncodeChar c).toByteArray := by
    rw [String.toUTF8, String.toByteArray_singleton, List.utf8Encode_singleton]
  rw [encodeUtf8, hbytes, ByteArray.toList, toList_loop]
  simp

theorem ofNat_eq_of_toNat {n : Nat} {b : UInt8} (h : n = b.toNat) : UInt8.ofNat n = b := by
  rw [h, UInt8.ofNat_toNat]

theorem Encodes.encodeUtf8_eq {bytes : List UInt8} {c : Char} (h : Encodes bytes (.char c)) :
    encodeUtf8 (String.singleton c) = bytes := by
  have hvalue : c.val.toNat = c.toNat := rfl
  rw [encodeUtf8_singleton, String.utf8EncodeChar]
  simp only [hvalue]
  obtain ⟨a, rfl, hc, hbounds⟩ | ⟨a, b, rfl, hc, hbounds⟩ | ⟨a, b, d, rfl, hc, hbounds⟩ |
    ⟨a, b, d, e, rfl, hc, hbounds⟩ := h.toNat_eq
  · rw [if_pos (by omega), ofNat_eq_of_toNat hc]
  · rw [if_neg (by omega), if_pos (by omega), ofNat_eq_of_toNat (b := a) (by omega),
      ofNat_eq_of_toNat (b := b) (by omega)]
  · rw [if_neg (by omega), if_neg (by omega), if_pos (by omega),
      ofNat_eq_of_toNat (b := a) (by omega), ofNat_eq_of_toNat (b := b) (by omega),
      ofNat_eq_of_toNat (b := d) (by omega)]
  · have hlast := a.toNat_lt
    have hmax := toNat_lt c
    rw [if_neg (by omega), if_neg (by omega), if_neg (by omega),
      ofNat_eq_of_toNat (b := a) (by omega), ofNat_eq_of_toNat (b := b) (by omega),
      ofNat_eq_of_toNat (b := d) (by omega), ofNat_eq_of_toNat (b := e) (by omega)]

/-- The bytes of a unit. -/
def ByteUnit.bytes : ByteUnit → List UInt8
  | .char c => encodeUtf8 (String.singleton c)
  | .stray b => [b]

theorem Encodes.bytes_eq {chunk : List UInt8} {u : ByteUnit} (h : Encodes chunk u) :
    u.bytes = chunk := by
  cases u with
  | char c => exact h.encodeUtf8_eq
  | stray b =>
      cases h
      rfl

theorem flatMap_bytes_units (bytes : List UInt8) : (units bytes).flatMap ByteUnit.bytes = bytes := by
  induction hlength : bytes.length using Nat.strong_induction_on generalizing bytes with
  | _ n ih =>
      cases bytes with
      | nil =>
          rw [units]
          rfl
      | cons a rest =>
          obtain ⟨chunk, more, u, hbytes, hencodes, hunits⟩ := exists_units_cons a rest
          have hpos := hencodes.length_pos
          have hshorter : more.length < n := by
            rw [← hlength, hbytes, List.length_append]
            omega
          rw [hunits, List.flatMap_cons, hencodes.bytes_eq, ih _ hshorter more rfl, hbytes]

theorem hexValue?_hexDigit {n : Nat} (h : n < 16) : hexValue? (hexDigit n) = some n := by
  have hall : ∀ i : Fin 16, hexValue? (hexDigit i) = some i.val := by decide
  exact hall ⟨n, h⟩

theorem digitsValue?_append (base : Nat) (digit? : Char → Option Nat) (cs : List Char) (c : Char) :
    digitsValue? base digit? (cs ++ [c]) =
      (digitsValue? base digit? cs).bind fun n => (digit? c).map (n * base + ·) := by
  rw [digitsValue?, List.foldlM_append]
  simp only [List.foldlM_cons, List.foldlM_nil, bind_pure]
  rfl

theorem digitsValue?_hexDigits {width n : Nat} (h : n < 16 ^ width) :
    digitsValue? 16 hexValue? (hexDigits width n) = some n := by
  induction width generalizing n with
  | zero =>
      obtain rfl : n = 0 := by simpa using h
      rfl
  | succ width ih =>
      have hquotient : n / 16 < 16 ^ width := by
        rw [Nat.pow_succ] at h
        exact Nat.div_lt_of_lt_mul (by rwa [Nat.mul_comm])
      rw [hexDigits, digitsValue?_append, ih hquotient, hexValue?_hexDigit (Nat.mod_lt _ (by decide))]
      simp only [Option.bind_some, Option.map_some, Option.some.injEq]
      omega

theorem hexDigits_two (n : Nat) : hexDigits 2 n = [hexDigit (n / 16 % 16), hexDigit (n % 16)] := rfl

theorem hexDigits_four (n : Nat) : hexDigits 4 n =
    [hexDigit (n / 16 / 16 / 16 % 16), hexDigit (n / 16 / 16 % 16), hexDigit (n / 16 % 16),
      hexDigit (n % 16)] := rfl

theorem hexDigits_eight (n : Nat) : hexDigits 8 n =
    [hexDigit (n / 16 / 16 / 16 / 16 / 16 / 16 / 16 % 16),
      hexDigit (n / 16 / 16 / 16 / 16 / 16 / 16 % 16), hexDigit (n / 16 / 16 / 16 / 16 / 16 % 16),
      hexDigit (n / 16 / 16 / 16 / 16 % 16), hexDigit (n / 16 / 16 / 16 % 16),
      hexDigit (n / 16 / 16 % 16), hexDigit (n / 16 % 16), hexDigit (n % 16)] := rfl

theorem unescape?_byte {n : Nat} (h : n < 256) (tail : List Char) :
    unescape? '"' ('\\' :: 'x' :: hexDigits 2 n ++ tail) = some ([UInt8.ofNat n], tail) := by
  have hvalue : digitsValue? 16 hexValue? (hexDigits 2 n) = some n := digitsValue?_hexDigits (by omega)
  rw [hexDigits_two] at hvalue ⊢
  simp only [List.cons_append, List.nil_append, unescape?, hvalue]
  simp [byte?, h]

theorem codePointBytes?_toNat (c : Char) :
    codePointBytes? c.toNat = some (encodeUtf8 (String.singleton c)) := by
  have hvalid : c.toNat.isValidChar := c.valid
  rw [codePointBytes?, if_pos hvalid, Char.ofNat_toNat]

theorem unescape?_short {c : Char} (h : c.toNat < 0x10000) (tail : List Char) :
    unescape? '"' ('\\' :: 'u' :: hexDigits 4 c.toNat ++ tail) =
      some (encodeUtf8 (String.singleton c), tail) := by
  have hvalue : digitsValue? 16 hexValue? (hexDigits 4 c.toNat) = some c.toNat :=
    digitsValue?_hexDigits (by omega)
  rw [hexDigits_four] at hvalue ⊢
  simp only [List.cons_append, List.nil_append, unescape?, hvalue]
  simp [codePointBytes?_toNat]

theorem unescape?_long (c : Char) (tail : List Char) :
    unescape? '"' ('\\' :: 'U' :: hexDigits 8 c.toNat ++ tail) =
      some (encodeUtf8 (String.singleton c), tail) := by
  have hmax := toNat_lt c
  have hvalue : digitsValue? 16 hexValue? (hexDigits 8 c.toNat) = some c.toNat :=
    digitsValue?_hexDigits (by omega)
  rw [hexDigits_eight] at hvalue ⊢
  simp only [List.cons_append, List.nil_append, unescape?, hvalue]
  simp [codePointBytes?_toNat]

theorem unescape?_simple {c k : Char} (h : simpleEscape? '"' k = some c) (tail : List Char) :
    unescape? '"' (['\\', k] ++ tail) = some (encodeUtf8 (String.singleton c), tail) := by
  have hx : simpleEscape? '"' 'x' = none := by decide
  have hu : simpleEscape? '"' 'u' = none := by decide
  have hU : simpleEscape? '"' 'U' = none := by decide
  rw [List.cons_append, List.singleton_append]
  unfold unescape?
  split <;> grind

theorem unescape?_plain {c : Char} (hquote : c ≠ '"') (hslash : c ≠ '\\') (hline : c ≠ '\n')
    (tail : List Char) :
    unescape? '"' ([c] ++ tail) = some (encodeUtf8 (String.singleton c), tail) := by
  rw [List.singleton_append, unescape?]
  · simp [hquote, hslash, hline]
  all_goals
    intros
    simp_all

theorem escapeChar_newline : escapeChar '"' '\n' = ['\\', 'n'] := by
  decide +kernel

theorem unescape?_escapeUnit {u : ByteUnit} (hu : u.IsProper) (tail : List Char) :
    unescape? '"' (escapeUnit u ++ tail) = some (u.bytes, tail) := by
  cases u with
  | stray b =>
      rw [escapeUnit, unescape?_byte b.toNat_lt, UInt8.ofNat_toNat]
      rfl
  | char c =>
      rw [escapeUnit, ByteUnit.bytes]
      obtain ⟨heq, hquote, hslash⟩ | ⟨k, heq, hk⟩ | ⟨heq, hc⟩ | ⟨heq, hc⟩ | heq := escapeChar_cases c
      · have hline : c ≠ '\n' := by
          rintro rfl
          rw [escapeChar_newline] at heq
          cases heq
        rw [heq, unescape?_plain hquote hslash hline]
      · rw [heq, unescape?_simple hk]
      · have hvalue : c.val.toNat = c.toNat := rfl
        rw [heq, unescape?_byte (by omega), encodeUtf8_singleton, String.utf8EncodeChar]
        simp only [hvalue]
        rw [if_pos (Nat.le_of_lt_succ hc)]
      · rw [heq, unescape?_short hc]
      · rw [heq, unescape?_long]

theorem unquoteRest_escapeUnits {us : List ByteUnit} (hus : ∀ u ∈ us, u.IsProper) :
    unquoteRest '"' (us.flatMap escapeUnit ++ ['"']) = some (us.flatMap ByteUnit.bytes) := by
  induction us with
  | nil =>
      rw [unquoteRest]
      rfl
  | cons u us ih =>
      rw [List.forall_mem_cons] at hus
      have hread := unescape?_escapeUnit hus.1 (us.flatMap escapeUnit ++ ['"'])
      rw [List.flatMap_cons, List.append_assoc, unquoteRest,
        if_neg (escapes_escapeUnit hus.1).ne_quote]
      split
      · rename_i hnone
        cases hnone.symm.trans hread
      · rename_i bytes rest hsome
        cases hsome.symm.trans hread
        rw [ih hus.2, List.flatMap_cons]
        rfl

theorem unquote?_quoteBytes (bytes : List UInt8) :
    unquote? (quoteBytes bytes).toList = some bytes := by
  rw [quoteBytes, String.toList_ofList, List.cons_append, unquote?,
    unquoteRest_escapeUnits (units_isProper bytes), flatMap_bytes_units]

end Formulary.Text

namespace Formulary.Token

open Formulary.Text

theorem closeString_plain {cs : List Char} (h : ∀ c ∈ cs, c ≠ '"' ∧ c ≠ '\\' ∧ c ≠ '\n')
    (tail : List Char) :
    closeString (cs ++ tail) = (closeString tail).map fun (text, rest) => (cs ++ text, rest) := by
  induction cs with
  | nil => simp
  | cons c cs ih =>
      rw [List.forall_mem_cons] at h
      obtain ⟨⟨hquote, hslash, hline⟩, hcs⟩ := h
      rw [List.cons_append, closeString, ih hcs, Option.map_map]
      · rfl
      all_goals
        intros
        simp_all

theorem hexDigit_plain {n : Nat} (h : n < 16) :
    hexDigit n ≠ '"' ∧ hexDigit n ≠ '\\' ∧ hexDigit n ≠ '\n' := by
  have hall : ∀ i : Fin 16, hexDigit i ≠ '"' ∧ hexDigit i ≠ '\\' ∧ hexDigit i ≠ '\n' := by decide
  exact hall ⟨n, h⟩

theorem hexDigits_plain (width n : Nat) :
    ∀ c ∈ hexDigits width n, c ≠ '"' ∧ c ≠ '\\' ∧ c ≠ '\n' := by
  induction width generalizing n with
  | zero => exact List.forall_mem_nil _
  | succ width ih =>
      rw [hexDigits, List.forall_mem_append]
      exact ⟨ih _, List.forall_mem_singleton.2 (hexDigit_plain (Nat.mod_lt _ (by decide)))⟩

theorem closeString_escape (k : Char) {cs : List Char}
    (h : ∀ c ∈ cs, c ≠ '"' ∧ c ≠ '\\' ∧ c ≠ '\n') (tail : List Char) :
    closeString ('\\' :: k :: cs ++ tail) =
      (closeString tail).map fun (text, rest) => ('\\' :: k :: cs ++ text, rest) := by
  rw [List.cons_append, List.cons_append, closeString, closeString_plain h, Option.map_map]
  rfl

theorem closeString_escapeUnit {u : ByteUnit} (hu : u.IsProper) (tail : List Char) :
    closeString (escapeUnit u ++ tail) =
      (closeString tail).map fun (text, rest) => (escapeUnit u ++ text, rest) := by
  have hescapes := escapes_escapeUnit hu
  generalize htext : escapeUnit u = text at hescapes ⊢
  cases hescapes with
  | @plain c hquote hslash =>
      have hline : c ≠ '\n' := by
        rintro rfl
        rw [escapeUnit, escapeChar_newline] at htext
        cases htext
      exact closeString_plain (List.forall_mem_singleton.2 ⟨hquote, hslash, hline⟩) tail
  | simple => exact closeString_escape _ (List.forall_mem_nil _) tail
  | coded => exact closeString_escape _ (hexDigits_plain _ _) tail

theorem closeString_escapeUnits {us : List ByteUnit} (hus : ∀ u ∈ us, u.IsProper)
    (tail : List Char) : closeString (us.flatMap escapeUnit ++ '"' :: tail) =
      some (us.flatMap escapeUnit ++ ['"'], tail) := by
  induction us with
  | nil => rfl
  | cons u us ih =>
      rw [List.forall_mem_cons] at hus
      rw [List.flatMap_cons, List.append_assoc, closeString_escapeUnit hus.1, ih hus.2]
      simp

theorem exists_closeString_quoteBytes (bytes : List UInt8) :
    ∃ text, (quoteBytes bytes).toList = '"' :: text ∧
      ∀ tail, closeString (text ++ tail) = some (text, tail) := by
  refine ⟨_, by rw [quoteBytes, String.toList_ofList, List.cons_append], fun tail => ?_⟩
  rw [List.append_assoc, List.singleton_append, closeString_escapeUnits (units_isProper bytes)]

theorem scanLexeme_quoteBytes (bytes : List UInt8) :
    ∃ text, (quoteBytes bytes).toList = '"' :: text ∧
      scanLexeme '"' text = .ok (.string, '"' :: text, []) := by
  obtain ⟨text, htext, hcloses⟩ := exists_closeString_quoteBytes bytes
  have hclose : closeString text = some (text, []) := by simpa using hcloses []
  have hvalue : unquote? ('"' :: text) = some bytes := htext ▸ unquote?_quoteBytes bytes
  refine ⟨text, htext, ?_⟩
  simp only [scanLexeme, hclose, hvalue, Option.isSome_some, if_true]

theorem quoteBytes_append_inj {bytes bytes' : List UInt8} {tail tail' : List Char}
    (h : (quoteBytes bytes).toList ++ tail = (quoteBytes bytes').toList ++ tail') :
    bytes = bytes' ∧ tail = tail' := by
  obtain ⟨text, htext, hcloses⟩ := exists_closeString_quoteBytes bytes
  obtain ⟨text', htext', hcloses'⟩ := exists_closeString_quoteBytes bytes'
  have hrest : text ++ tail = text' ++ tail' := by simpa [htext, htext'] using h
  have hends : some (text, tail) = some (text', tail') := by rw [← hcloses, hrest, hcloses']
  obtain ⟨rfl, rfl⟩ := Prod.mk.inj (Option.some.inj hends)
  have hvalue : some bytes = some bytes' := by
    rw [← unquote?_quoteBytes bytes, htext, ← htext', unquote?_quoteBytes]
  exact ⟨Option.some.inj hvalue, rfl⟩

end Formulary.Token
