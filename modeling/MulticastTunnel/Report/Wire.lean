import MulticastTunnel.Ip.Control
import MulticastTunnel.Report.Basic

/-!
# The wire form of reports

Reports about IPv4 groups are IGMPv3 messages, those about IPv6 groups MLDv2 messages. Both are
laid out alike and differ in the width of addresses, the message type and the checksum; a `Dialect`
holds the differences that a reader or writer of records needs.

`Report.encode` writes the IP packet of a report, `Report.decode` reads one. Auxiliary data of a
record, and bytes after the last record, are passed over.
-/

namespace MulticastTunnel

namespace Report

/-- What distinguishes reports of the two families. -/
structure Dialect where
  messageType : UInt8
  /-- The name of the message in errors. -/
  name : String
  /-- The version's name of the message in errors. -/
  versionName : String
  /-- The name of a record in errors. -/
  recordName : String
  /-- The name of auxiliary data in errors. -/
  auxiliaryName : String
  /-- The width of an address. -/
  width : Nat
  /-- The address with the given bits. -/
  address : Nat → Address

/-- Reports as IGMPv3 messages. -/
def Dialect.igmp : Dialect where
  messageType := 0x22
  name := "IGMP report"
  versionName := "IGMPv3 report"
  recordName := "IGMPv3 group record"
  auxiliaryName := "IGMPv3 auxiliary data"
  width := 4
  address n := .v4 (BitVec.ofNat 32 n)

/-- Reports as MLDv2 messages. -/
def Dialect.mld : Dialect where
  messageType := 143
  name := "MLD report"
  versionName := "MLDv2 report"
  recordName := "MLDv2 address record"
  auxiliaryName := "MLDv2 auxiliary data"
  width := 16
  address n := .v6 (BitVec.ofNat 128 n)

/-! ### Writing -/

/-- The destination of IGMPv3 reports, 224.0.0.22. -/
def destinationV4 : BitVec 32 := 0xe0000016

/-- The destination of MLDv2 reports, ff02::16. -/
def destinationV6 : BitVec 128 := 0xff020000000000000000000000000016

/-- A record's bytes. -/
def recordBytes (r : Record) : Outcome Bytes := do
  let count ← Outcome.fitting 16 r.sources.length
  return [r.kind.code, 0] ++ Bytes.ofNat 2 count ++ r.group.toBytes
    ++ r.sources.flatMap Address.toBytes

/-- The message of a report, its checksum still zero. -/
def message (messageType : UInt8) (records : List Record) : Outcome Bytes := do
  let count ← Outcome.fitting 16 records.length
  let records ← records.mapM recordBytes
  return [messageType, 0, 0, 0, 0, 0] ++ Bytes.ofNat 2 count ++ records.flatten

/-- The first address of a record that is not of the reporter's family, and the address it is in
conflict with. -/
def recordConflict (reporter : Address) (r : Record) : Option (Address × Address) :=
  if !r.group.sameFamily reporter then some (reporter, r.group)
  else (r.sources.find? fun s => !s.sameFamily reporter).map fun s => (r.group, s)

/-- The first address of a report that is not of the reporter's family, and the address it is in
conflict with. -/
def familyConflict (reporter : Address) (report : Report) : Option (Address × Address) :=
  report.records.findSome? (recordConflict reporter)

/-- Writes the IP packet of a report. All addresses have to be of the reporter's family. -/
def encode (report : Report) (reporter : Address) : Outcome Bytes :=
  match report.familyConflict reporter with
  | some (a, b) => Outcome.reject (.familyMismatch a b)
  | none =>
    if maxLength < report.encodedLength then
      Outcome.reject (.lengthOutOfBounds "membership report" report.encodedLength maxLength)
    else
      match reporter with
      | .v4 source => do
        ControlPacket.igmp source destinationV4
          (← message Dialect.igmp.messageType report.records)
      | .v6 source => do
        ControlPacket.icmp source destinationV6
          (← message Dialect.mld.messageType report.records)

/-! ### Reading -/

/-- Reads a record. -/
def recordReader (d : Dialect) : Reader Record := do
  let code ← Reader.u8 d.recordName
  let kind ← match RecordKind.ofCode? code.toNat with
    | none => Reader.reject (.unexpectedType "group record" code)
    | some kind => pure kind
  let auxiliary ← Reader.word d.recordName 1
  let count ← Reader.word d.recordName 2
  let group ← Reader.word d.recordName d.width
  let sources ← Reader.repeated (Reader.word (d.recordName ++ " sources") d.width) count
  Reader.skip d.auxiliaryName (auxiliary * 4)
  return ⟨kind, d.address group, sources.map d.address⟩

/-- Reads what follows the check of a message's length and checksum. -/
def messageReader (d : Dialect) : Reader Report := do
  let type := UInt8.ofNat (← Reader.sureWord 1)
  if type ≠ d.messageType then
    Reader.reject (.unexpectedType d.name type)
  let _ ← Reader.take 5
  let count ← Reader.sureWord 2
  return ⟨← Reader.repeated (recordReader d) count⟩

/-- Reads the report in an IGMPv3 message. -/
def ofIgmp (igmp : Bytes) : Outcome Report := Reader.parse (do
    Reader.require Dialect.igmp.versionName headerLength
    if ControlPacket.igmpChecksum igmp ≠ 0 then
      Reader.reject (.checksumMismatch "IGMP")
    messageReader Dialect.igmp) igmp

/-- Reads the report in an MLDv2 message that was sent from `source` to `destination`. -/
def ofMld (source destination : BitVec 128) (icmp : Bytes) : Outcome Report := Reader.parse (do
    Reader.require Dialect.mld.versionName headerLength
    if ControlPacket.icmpChecksum source destination icmp ≠ 0 then
      Reader.reject (.checksumMismatch "ICMPv6")
    messageReader Dialect.mld) icmp

/-- Reads the report that an IP packet carries. -/
def decode (packet : Bytes) : Outcome Report := ControlPacket.read ofIgmp ofMld packet

end Report

end MulticastTunnel
