import SmartDns.Dns.Error
set_option autoImplicit false

/-! Names as dnspython has them: bytes in labels, compared without regard to case. -/

namespace SmartDns

/-- `dns.name.Name`: the labels of an absolute name without the root label. -/
structure Name where
  labels : List (List UInt8)
  deriving DecidableEq, Repr

def lowerByte (b : UInt8) : UInt8 := if 65 ≤ b ∧ b ≤ 90 then b+32 else b

namespace Name

/-- What equality and hashing of names look at. -/
def canon (n : Name) : Name := ⟨n.labels.map (fun l => l.map lowerByte)⟩

end Name

end SmartDns
