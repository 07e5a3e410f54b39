namespace Formulary.Text

def isContinuation (b : UInt8) : Bool := 0x80 ≤ b && b ≤ 0xbf

/-- The value of a lead byte's payload followed by continuation bytes. -/
def joinPayload (lead : Nat) (continuations : List UInt8) : Nat :=
  continuations.foldl (fun value b => value * 64 + (b.toNat - 0x80)) lead

/-- One unit of a byte sequence: a character, or a byte that belongs to none. -/
inductive ByteUnit where
  | char (c : Char)
  | stray (b : UInt8)

def isTwoByte (a b : UInt8) : Bool := 0xc2 ≤ a && a ≤ 0xdf && isContinuation b

/-- Three bytes that encode a character: neither an overlong form nor a surrogate. -/
def isThreeByte (a b c : UInt8) : Bool :=
  0xe0 ≤ a && a ≤ 0xef && isContinuation b && isContinuation c &&
    (a != 0xe0 || 0xa0 ≤ b) && (a != 0xed || b ≤ 0x9f)

/-- Four bytes that encode a character: neither an overlong form nor beyond the last plane. -/
def isFourByte (a b c d : UInt8) : Bool :=
  0xf0 ≤ a && a ≤ 0xf4 && isContinuation b && isContinuation c && isContinuation d &&
    (a != 0xf0 || 0x90 ≤ b) && (a != 0xf4 || b ≤ 0x8f)

def units : List UInt8 → List ByteUnit
  | [] => []
  | a :: rest =>
    if a < 0x80 then .char (Char.ofNat a.toNat) :: units rest
    else match rest with
      | [] => [.stray a]
      | b :: rest₂ =>
        if isTwoByte a b then .char (Char.ofNat (joinPayload (a.toNat - 0xc0) [b])) :: units rest₂
        else match rest₂ with
          | [] => .stray a :: units [b]
          | c :: rest₃ =>
            if isThreeByte a b c then
              .char (Char.ofNat (joinPayload (a.toNat - 0xe0) [b, c])) :: units rest₃
            else match rest₃ with
              | [] => .stray a :: units [b, c]
              | d :: rest₄ =>
                if isFourByte a b c d then
                  .char (Char.ofNat (joinPayload (a.toNat - 0xf0) [b, c, d])) :: units rest₄
                else .stray a :: units (b :: c :: d :: rest₄)
termination_by bytes => bytes.length

def encodeUtf8 (s : String) : List UInt8 := s.toUTF8.toList

/-- The characters of a well-formed byte sequence. -/
def decodeUtf8? (bytes : List UInt8) : Option (List Char) :=
  (units bytes).mapM fun
    | .char c => some c
    | .stray _ => none

/-- The characters of any byte sequence, a replacement character for each stray byte. -/
def decodeLossy (bytes : List UInt8) : List Char :=
  (units bytes).map fun
    | .char c => c
    | .stray _ => '\ufffd'

end Formulary.Text
