import HubLink.Bytes.Hex
import HubLink.Text.Quoted

/-!
# Faults below the message layer

What can be wrong with bytes before anyone looks at the message inside: a payload that fails its
checksum, a length that exceeds the agreed limit, a hardware address that is no address.
-/

namespace HubLink

/-- A fault of the link itself, as opposed to a fault of the message it carries. -/
inductive LinkFault where
  /-- The payload hashes to `computed`, the frame carries `stated`. -/
  | checksum (stated computed : UInt32)
  /-- A payload of this many bytes exceeds the limit. -/
  | size (bytes : Nat)
  /-- The text is no hardware address. -/
  | address (text : String)
  deriving DecidableEq, Repr

/-- The wording of a link fault. -/
def LinkFault.message : LinkFault → String
  | .checksum stated computed =>
    s!"checksum mismatch: frame carries {Hex.word32 stated}, payload hashes to " ++
      Hex.word32 computed
  | .size bytes => s!"size limit exceeded: {bytes}"
  | .address text => s!"invalid hardware address: {Text.quoted text}"

end HubLink
