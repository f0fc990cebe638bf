/-!
# Checksum of a frame payload

Both processors guard a payload with the reflected CRC-32: polynomial `0xEDB88320`, a register that
starts as all ones, and a final complement.  The register is advanced one bit at a time, because a
bit step is linear over exclusive or, and every statement about damage on the line comes from that.
-/

namespace HubLink.Checksum

/-- The generator polynomial, lowest power in the highest bit. -/
def polynomial : UInt32 := 0xEDB88320

/-- Divides the register by one more power of `x`. -/
def step (register : UInt32) : UInt32 :=
  if register &&& 1 = 1 then (register >>> 1) ^^^ polynomial else register >>> 1

/-- Divides the register by eight powers of `x`. -/
def eightSteps (register : UInt32) : UInt32 :=
  step (step (step (step (step (step (step (step register)))))))

/-- Takes one more byte into the register. -/
def absorb (register : UInt32) (byte : UInt8) : UInt32 :=
  eightSteps (register ^^^ byte.toUInt32)

end HubLink.Checksum

namespace HubLink

/-- The CRC-32 of `data`. -/
def checksum (data : List UInt8) : UInt32 :=
  data.foldl Checksum.absorb 0xFFFFFFFF ^^^ 0xFFFFFFFF

/-- Whether `data` hashes to `expected`. -/
def Checksum.verify (data : List UInt8) (expected : UInt32) : Bool :=
  checksum data == expected

end HubLink
