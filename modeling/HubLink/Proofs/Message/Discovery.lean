import HubLink.Proofs.Message.Printable
import HubLink.Proofs.Node.Address
import HubLink.Proofs.Node.Advertisement
import HubLink.Proofs.Stream.Envelopes

/-!
# From a broadcast to the other processor

A scanner turns the seventeen bytes of a broadcast into a discovery, and the discovery travels as
JSON.  On the way an address becomes a text, bit fields become numbers, and a reading of 32 bits
becomes a decimal of a 64-bit number.  Nothing is lost (`discovery_arrives`): what the receiver reads
can be laid byte by byte over the broadcast (`Reports`).

This joins three theories and adds little to them.  `Placed` says where the fields of a broadcast
are, `parse_print_of_plain` that an envelope without free-form parts is read back, and `parse_text`
that an address is.  The one thing that can go wrong is a reading that is no number; it is caught
when the envelope is written.
-/

namespace HubLink.Message

open Node (Address Advertisement)

/-- What a discovery says is what was in the broadcast, and the signal strength of the receiver. -/
structure Reports (received : List UInt8) (rssi : Int16) (body : NodeDiscovered) : Prop where
  rssi_eq : body.rssi = rssi
  address : ∃ address, Address.parse body.nodeId = .ok address ∧
    address.bytes = received.extract 3 9
  battery : received[9]? = some body.advertisementData.batteryPercent
  reading : LittleEndian.value (received.extract 10 14) =
    body.advertisementData.lastReading.bits.toNat
  faults : received[14]? = some body.advertisementData.faultFlags.bits
  counter : LittleEndian.value (received.extract 15 17) =
    body.advertisementData.counter.toNat

variable {received : List UInt8} {adv : Advertisement}

theorem reports_of_placed (hplaced : adv.Placed received) (rssi : Int16) :
    Reports received rssi (.ofAdvertisement adv rssi) where
  rssi_eq := rfl
  address := ⟨adv.nodeId, adv.nodeId.parse_text, hplaced.address.symm⟩
  battery := hplaced.battery
  reading := hplaced.reading
  faults := hplaced.faults
  counter := hplaced.counter

namespace Envelope

variable {envelope : Envelope} {body : NodeDiscovered}

theorem exists_print_discovery (hpayload : envelope.payload = .nodeDiscovered body)
    (hfinite : body.advertisementData.lastReading.isFinite = true) :
    ∃ text, envelope.print = .ok text := by
  obtain ⟨json, hjson⟩ := NodeDiscovered.exists_toJson hfinite
  have hpayloadJson : envelope.payload.toJson = .ok json := by
    rw [hpayload]
    exact hjson
  exact (exists_print hpayloadJson).1

/-- A discovery whose reading is no number has no text. -/
theorem exists_print_eq_error (hpayload : envelope.payload = .nodeDiscovered body)
    (hfinite : body.advertisementData.lastReading.isFinite = false) :
    ∃ reading, envelope.print = .error reading := by
  cases hreading : body.advertisementData.lastReading.nonFinite? with
  | none =>
      rw [Single.nonFinite?_eq_none_iff, hfinite] at hreading
      cases hreading
  | some reading =>
      have hjson := NodeDiscovered.toJson_eq_error_iff.mpr hreading
      refine ⟨reading, (print_eq_error ?_).1⟩
      rw [hpayload]
      exact hjson

end Envelope

/-- A text that fits no frame under the limit is named by its size. -/
theorem Codec.encode_eq_oversize {limit : Nat} {envelope : Envelope} {text : List UInt8}
    (hprint : envelope.print = .ok text)
    (hlong : ¬ (text.length ≤ limit ∧ text.length < UInt32.size)) :
    encode limit envelope = .error (.oversize text.length) := by
  have hover : limit < text.length ∨ UInt32.size ≤ text.length := by omega
  rw [encode_of_print hprint, if_pos hover]

/-- **A broadcast arrives with all that was in it.**  Any seventeen bytes, with whatever behind them,
are an advertisement.  If its reading is finite, the discovery of it has a text, and under any limit
that the text fits it has a frame that is read as a discovery of the same envelope, which reports the
broadcast bit by bit; under any other limit its size is reported.  If the reading is infinite or no
number, encoding fails. -/
theorem discovery_arrives (received : List UInt8) (hlength : 17 ≤ received.length) (rssi : Int16)
    (version correlationId : String) (timestamp : Int64) :
    ∃ adv, Advertisement.decode received = some adv ∧
      let envelope : Envelope :=
        ⟨version, correlationId, timestamp, .nodeDiscovered (.ofAdvertisement adv rssi)⟩
      ∃ reading : Single, LittleEndian.value (received.extract 10 14) = reading.bits.toNat ∧
        (reading.isFinite = true →
          ∃ text, envelope.print = .ok text ∧
            ∀ limit, let fits := text.length ≤ limit ∧ text.length < UInt32.size
              (fits → ∃ frame, Codec.encode limit envelope = .ok frame ∧
                ∀ rest, ∃ body, Reports received rssi body ∧
                  Codec.decode limit (frame ++ rest) =
                    .ok (some ⟨version, correlationId, timestamp, .nodeDiscovered body⟩)) ∧
              (¬ fits → Codec.encode limit envelope = .error (.oversize text.length))) ∧
        (reading.isFinite = false →
          ∀ limit, ∃ fault, Codec.encode limit envelope = .error (.encode fault)) := by
  obtain ⟨adv, hdecode⟩ := Advertisement.exists_decode hlength
  have hplaced := Advertisement.placed_of_decode hdecode
  refine ⟨adv, hdecode, ?_⟩
  intro envelope
  have hpayload : envelope.payload = .nodeDiscovered (.ofAdvertisement adv rssi) := rfl
  refine ⟨adv.lastReading, hplaced.reading, fun hfinite => ?_, fun hinfinite limit => ?_⟩
  · obtain ⟨text, hprint⟩ := Envelope.exists_print_discovery hpayload hfinite
    refine ⟨text, hprint, fun limit => ⟨?_, Codec.encode_eq_oversize hprint⟩⟩
    rintro ⟨hlimit, hsize⟩
    refine ⟨Frame.layout text, Codec.encode_eq_layout hprint hlimit hsize, fun rest => ?_⟩
    refine ⟨.ofAdvertisement adv rssi, reports_of_placed hplaced rssi, ?_⟩
    have hparse := Envelope.parse_print_of_plain ⟨rfl, rfl⟩ hprint
    rw [Codec.decode_layout hlimit hsize, hparse]
  · obtain ⟨fault, hprint⟩ := Envelope.exists_print_eq_error hpayload hinfinite
    exact ⟨fault, Codec.encode_eq_error hprint limit⟩

/-- The smallest negative reading, all faults set, a battery beyond its percent and the next
broadcast begun behind; and a broadcast whose reading is no number. -/
theorem discovery_arrives_negative_subnormal :
    let received : List UInt8 :=
      [0x59, 0, 1, 1, 2, 3, 4, 5, 6, 255, 1, 0, 0, 0x80, 0xFF, 0xFE, 0xCA, 0x59]
    let adv : Advertisement :=
      ⟨0x0059, 1, ⟨1, 2, 3, 4, 5, 6⟩, 255, ⟨0x80000001⟩, ⟨0xFF⟩, 0xCAFE, none⟩
    let envelope : Envelope := ⟨"1.0.0", "7", -1, .nodeDiscovered (.ofAdvertisement adv (-70))⟩
    (Advertisement.decode received = some adv ∧
      ∃ frame, Codec.encode 1024 envelope = .ok frame ∧
        ∃ body, Reports received (-70) body ∧ body.advertisementData.faultFlags = ⟨0xFF⟩ ∧
          Codec.decode 1024 (frame ++ [9]) = .ok (some ⟨"1.0.0", "7", -1, .nodeDiscovered body⟩)) ∧
    ∃ adv, Advertisement.decode (received.set 13 0x7F |>.set 12 0x80) = some adv ∧
      ∃ fault, Codec.encode 1024
        ⟨"1.0.0", "7", -1, .nodeDiscovered (.ofAdvertisement adv (-70))⟩ =
          .error (.encode fault) := by
  intro received adv envelope
  constructor
  · obtain ⟨_, hdecode, reading, hreading, hfinite, -⟩ :=
      discovery_arrives received (by decide) (-70) "1.0.0" "7" (-1)
    obtain rfl := Option.some.inj hdecode
    obtain rfl : reading = ⟨0x80000001⟩ := congrArg Single.mk (UInt32.toNat_inj.mp hreading.symm)
    obtain ⟨text, hprint, hframes⟩ := hfinite (by decide)
    have hshort : text.length ≤ 1024 := by
      have hall : (envelope.print.map fun text => decide (text.length ≤ 1024)) = .ok true := by
        decide +kernel
      rw [show envelope.print = .ok text from hprint] at hall
      exact of_decide_eq_true (Except.ok.inj hall)
    have hsize : text.length < UInt32.size := Nat.lt_of_le_of_lt hshort (by decide)
    obtain ⟨frame, hencode, harrives⟩ := (hframes 1024).1 ⟨hshort, hsize⟩
    obtain ⟨body, hreports, hbody⟩ := harrives [9]
    have hfaults : body.advertisementData.faultFlags = ⟨0xFF⟩ :=
      congrArg Node.FaultFlags.mk (Option.some.inj hreports.faults.symm)
    exact ⟨hdecode, frame, hencode, body, hreports, hfaults, hbody⟩
  · obtain ⟨adv, hdecode, reading, hreading, -, hinfinite⟩ :=
      discovery_arrives (received.set 13 0x7F |>.set 12 0x80) (by decide) (-70) "1.0.0" "7" (-1)
    obtain rfl : reading = ⟨0x7F800001⟩ := congrArg Single.mk (UInt32.toNat_inj.mp hreading.symm)
    exact ⟨adv, hdecode, hinfinite (by decide) 1024⟩

end HubLink.Message
