import Yazpp.Comstack

/-!
# YAZ's encoding streams

`ODR` is YAZ's BER codec, and not part of the repository. The model takes the functions of an
ENCODE stream as a parameter (`OdrEncode`), over an arbitrary type of values to encode. What the
code relies on is `OdrEncode.Lawful`: a new stream and a reset one are clean, a value that does not
encode leaves the error indicator set, and with the indicator set nothing encodes until
`odr_reset`.

Whether a value is encodable, and to which octets, is a matter of the value alone: it is what a
stream that was just created makes of it.
-/

set_option autoImplicit false

namespace Yazpp

/-- The functions of an encoding stream, for values of type `γ`. `zGdu` is the encoder, with its
`int` read as a truth value. -/
structure OdrEncode (γ σ : Type) where
  createmem : σ
  zGdu : σ → γ → σ × Bool
  geterror : σ → Bool
  getelement : σ → Option String
  getbuf : σ → Buf
  reset : σ → σ

namespace OdrEncode

variable {γ σ : Type}

/-- A value that a new stream encodes. -/
def Encodable (odr : OdrEncode γ σ) (g : γ) : Prop := (odr.zGdu odr.createmem g).2 = true

/-- The octets a new stream makes of a value. -/
def octets (odr : OdrEncode γ σ) (g : γ) : Buf := odr.getbuf (odr.zGdu odr.createmem g).1

/-- A stream without an error and without octets. -/
structure Clean (odr : OdrEncode γ σ) (s : σ) : Prop where
  error : odr.geterror s = false
  empty : odr.getbuf s = []

/-- What the code relies on. No value encodes to nothing: BER has a tag and a length for each. -/
structure Lawful (odr : OdrEncode γ σ) : Prop where
  created : odr.Clean odr.createmem
  reset : ∀ s, odr.Clean (odr.reset s)
  same : ∀ s g, odr.Clean s → (odr.zGdu s g).2 = (odr.zGdu odr.createmem g).2
  buffer : ∀ s g, odr.Clean s → odr.Encodable g → odr.getbuf (odr.zGdu s g).1 = odr.octets g
  fails : ∀ s g, (odr.zGdu s g).2 = false → odr.geterror (odr.zGdu s g).1 = true
  sticks : ∀ s g, odr.geterror s = true → (odr.zGdu s g).2 = false
  nonempty : ∀ g, odr.Encodable g → odr.octets g ≠ []

end OdrEncode

end Yazpp
