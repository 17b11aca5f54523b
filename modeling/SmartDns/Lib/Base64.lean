import Mathlib.Data.List.Basic
set_option autoImplicit false

/-!
Base64 over any alphabet: bytes as digits of six bits with padding behind them, and the strict
decoder that reads them back.
-/

namespace Base64

/-- A symbol for each of the sixty-four digits, and one more for padding. -/
structure Alphabet (σ : Type) where
  symbol : Fin 64 → σ
  value : σ → Option (Fin 64)
  pad : σ
  value_symbol : ∀ digit, value (symbol digit) = some digit
  value_pad : value pad = none

attribute [simp] Alphabet.value_symbol Alphabet.value_pad

theorem Alphabet.symbol_ne_pad {σ : Type} (A : Alphabet σ) (digit : Fin 64) :
    A.symbol digit ≠ A.pad := by
  intro h
  have hvalue := A.value_symbol digit
  rw [h,A.value_pad] at hvalue
  contradiction

def digit (n : Nat) : Fin 64 := Fin.ofNat 64 n

theorem digit_val {n : Nat} (h : n < 64) : (digit n).val = n := Nat.mod_eq_of_lt h

/-- Three bytes are four digits. The bits that a last group lacks are zero. -/
def digits : List UInt8 → List (Fin 64)
  | [] => []
  | [a] => [digit (a.toNat/4),digit (a.toNat%4*16)]
  | [a,b] => [digit (a.toNat/4),digit (a.toNat%4*16+b.toNat/16),digit (b.toNat%16*4)]
  | a :: b :: c :: rest =>
    digit (a.toNat/4) :: digit (a.toNat%4*16+b.toNat/16) :: digit (b.toNat%16*4+c.toNat/64) ::
      digit (c.toNat%64) :: digits rest

/-- The padding that fills a group of four symbols. -/
def padding (length : Nat) : Nat := (4-length%4)%4

section
variable {σ : Type} (A : Alphabet σ)

def unpadded (bytes : List UInt8) : List σ := (digits bytes).map A.symbol

def encode (bytes : List UInt8) : List σ :=
  unpadded A bytes ++ List.replicate (padding (digits bytes).length) A.pad

/-- The place in a group of four symbols, the bits that wait for a byte, and the padding read. -/
structure Quad where
  pos : Nat
  left : Nat
  pads : Nat
  padded : Bool

def Quad.start : Quad := ⟨0,0,0,false⟩

/-- The strict decoder: padding fills the last group and nothing stands behind it. -/
def decodeFrom [DecidableEq σ] (q : Quad) : List σ → Option (List UInt8)
  | [] => if q.pos = 0 then some [] else none
  | x :: rest =>
    if x = A.pad then
      if q.pos = 0 then none
      else if q.pos = 1 then decodeFrom {q with padded := true} rest
      else if 4 ≤ q.pos+(q.pads+1) then if rest = [] then some [] else none
      else decodeFrom {q with pads := q.pads+1,padded := true} rest
    else
      match A.value x with
      | none => none
      | some n =>
        if q.padded then none
        else
          match q.pos with
          | 0 => decodeFrom ⟨1,n,0,false⟩ rest
          | 1 => (UInt8.ofNat (q.left*4+n/16) :: ·) <$> decodeFrom ⟨2,n%16,0,false⟩ rest
          | 2 => (UInt8.ofNat (q.left*16+n/4) :: ·) <$> decodeFrom ⟨3,n%4,0,false⟩ rest
          | _ => (UInt8.ofNat (q.left*64+n) :: ·) <$> decodeFrom .start rest

def decode [DecidableEq σ] (text : List σ) : Option (List UInt8) := decodeFrom A .start text

end

section
variable {σ : Type} [DecidableEq σ] {A : Alphabet σ} {rest : List σ}

/-! ### One symbol -/

theorem decodeFrom_first (d : Fin 64) :
    decodeFrom A .start (A.symbol d :: rest) = decodeFrom A ⟨1,d,0,false⟩ rest := by
  simp [decodeFrom,Quad.start,A.symbol_ne_pad]

theorem decodeFrom_second {left : Nat} (d : Fin 64) :
    decodeFrom A ⟨1,left,0,false⟩ (A.symbol d :: rest) =
      (UInt8.ofNat (left*4+d/16) :: ·) <$> decodeFrom A ⟨2,d%16,0,false⟩ rest := by
  simp [decodeFrom,A.symbol_ne_pad]

theorem decodeFrom_third {left : Nat} (d : Fin 64) :
    decodeFrom A ⟨2,left,0,false⟩ (A.symbol d :: rest) =
      (UInt8.ofNat (left*16+d/4) :: ·) <$> decodeFrom A ⟨3,d%4,0,false⟩ rest := by
  simp [decodeFrom,A.symbol_ne_pad]

theorem decodeFrom_fourth {left : Nat} (d : Fin 64) :
    decodeFrom A ⟨3,left,0,false⟩ (A.symbol d :: rest) =
      (UInt8.ofNat (left*64+d) :: ·) <$> decodeFrom A .start rest := by
  simp [decodeFrom,A.symbol_ne_pad]

/-! ### One group -/

theorem ofNat_eq {n : Nat} {b : UInt8} (h : n = b.toNat) : UInt8.ofNat n = b := by
  rw [h,UInt8.ofNat_toNat]

theorem decode_three (a b c : UInt8) :
    decodeFrom A .start (A.symbol (digit (a.toNat/4)) ::
      A.symbol (digit (a.toNat%4*16+b.toNat/16)) ::
      A.symbol (digit (b.toNat%16*4+c.toNat/64)) :: A.symbol (digit (c.toNat%64)) :: rest) =
      (fun bytes => a :: b :: c :: bytes) <$> decodeFrom A .start rest := by
  have ha := a.toNat_lt
  have hb := b.toNat_lt
  have hc := c.toNat_lt
  have hfirst : UInt8.ofNat (a.toNat/4*4+(a.toNat%4*16+b.toNat/16)/16) = a := ofNat_eq (by omega)
  have hsecond : UInt8.ofNat ((a.toNat%4*16+b.toNat/16)%16*16+(b.toNat%16*4+c.toNat/64)/4) = b :=
    ofNat_eq (by omega)
  have hthird : UInt8.ofNat ((b.toNat%16*4+c.toNat/64)%4*64+c.toNat%64) = c :=
    ofNat_eq (by omega)
  rw [decodeFrom_first,decodeFrom_second,decodeFrom_third,decodeFrom_fourth,
    digit_val (by omega),digit_val (by omega),digit_val (by omega),digit_val (by omega),
    hfirst,hsecond,hthird]
  simp only [Option.map_eq_map,Option.map_map,Function.comp_def]

theorem decode_two (a b : UInt8) :
    decodeFrom A .start [A.symbol (digit (a.toNat/4)),
      A.symbol (digit (a.toNat%4*16+b.toNat/16)),A.symbol (digit (b.toNat%16*4)),A.pad] =
      some [a,b] := by
  have ha := a.toNat_lt
  have hb := b.toNat_lt
  have hfirst : UInt8.ofNat (a.toNat/4*4+(a.toNat%4*16+b.toNat/16)/16) = a := ofNat_eq (by omega)
  have hsecond : UInt8.ofNat ((a.toNat%4*16+b.toNat/16)%16*16+b.toNat%16*4/4) = b :=
    ofNat_eq (by omega)
  rw [decodeFrom_first,decodeFrom_second,decodeFrom_third,digit_val (by omega),
    digit_val (by omega),digit_val (by omega),hfirst,hsecond]
  simp [decodeFrom]

theorem decode_one (a : UInt8) :
    decodeFrom A .start [A.symbol (digit (a.toNat/4)),A.symbol (digit (a.toNat%4*16)),A.pad,
      A.pad] = some [a] := by
  have ha := a.toNat_lt
  have hfirst : UInt8.ofNat (a.toNat/4*4+a.toNat%4*16/16) = a := ofNat_eq (by omega)
  rw [decodeFrom_first,decodeFrom_second,digit_val (by omega),digit_val (by omega),hfirst]
  simp [decodeFrom]

/-! ### All groups -/

theorem padding_add_four (n : Nat) : padding (n+4) = padding n := by
  simp [padding]

theorem decode_encode (bytes : List UInt8) : decode A (encode A bytes) = some bytes := by
  induction bytes using digits.induct with
  | case1 => rfl
  | case2 a => exact decode_one a
  | case3 a b => exact decode_two a b
  | case4 a b c rest ih =>
    have hgroup : encode A (a :: b :: c :: rest) = A.symbol (digit (a.toNat/4)) ::
        A.symbol (digit (a.toNat%4*16+b.toNat/16)) ::
        A.symbol (digit (b.toNat%16*4+c.toNat/64)) :: A.symbol (digit (c.toNat%64)) ::
        encode A rest := by
      simp [encode,unpadded,digits,padding_add_four]
    rw [decode] at ih
    rw [decode,hgroup,decode_three,ih]
    rfl

end

/-! ### The two alphabets -/

/-- `A` to `Z`, `a` to `z`, `0` to `9`, `+` and `/`. -/
def standard : Alphabet Char where
  symbol digit :=
    Char.ofNat (if digit.val < 26 then 65+digit.val else if digit.val < 52 then 71+digit.val
      else if digit.val < 62 then digit.val-4 else if digit.val = 62 then 43 else 47)
  value c :=
    let n := c.toNat
    if 65 ≤ n ∧ n ≤ 90 then some (digit (n-65))
    else if 97 ≤ n ∧ n ≤ 122 then some (digit (n-71))
    else if 48 ≤ n ∧ n ≤ 57 then some (digit (n+4))
    else if c = '+' then some 62
    else if c = '/' then some 63
    else none
  pad := '='
  value_symbol := by decide +kernel
  value_pad := by decide

def toUrlSafe (c : Char) : Char := if c = '+' then '-' else if c = '/' then '_' else c

def fromUrlSafe (c : Char) : Char := if c = '-' then '+' else if c = '_' then '/' else c

theorem fromUrlSafe_toUrlSafe (d : Fin 64) :
    fromUrlSafe (toUrlSafe (standard.symbol d)) = standard.symbol d := by
  have hall : ∀ d, fromUrlSafe (toUrlSafe (standard.symbol d)) = standard.symbol d := by
    decide +kernel
  exact hall d

/-- What stands for a digit in a URL is ASCII and no padding. -/
theorem toUrlSafe_symbol (d : Fin 64) :
    (toUrlSafe (standard.symbol d)).toNat < 128 ∧ toUrlSafe (standard.symbol d) ≠ '=' := by
  have hall : ∀ d, (toUrlSafe (standard.symbol d)).toNat < 128 ∧
      toUrlSafe (standard.symbol d) ≠ '=' := by
    decide +kernel
  exact hall d

end Base64
