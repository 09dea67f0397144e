import MulticastTunnel.Failure

/-!
# Membership reports

A report is a list of records, each about one group. Current state records answer queries; the
others announce changes.

On the wire a report is a header of 8 bytes followed by its records: a fixed part of 4 bytes, the
group and the sources. `Record.encodedLength` and `Report.encodedLength` count these bytes.
-/

namespace MulticastTunnel

/-- What a record says about its group. -/
inductive RecordKind where
  /-- Exactly the sources are wanted. -/
  | isInclude
  /-- All but the sources are wanted. -/
  | isExclude
  /-- From now on, exactly the sources are wanted. -/
  | toInclude
  /-- From now on, all but the sources are wanted. -/
  | toExclude
  /-- From now on, the sources are wanted, too. -/
  | allow
  /-- From now on, the sources are no longer wanted. -/
  | block
  deriving DecidableEq, Inhabited

namespace RecordKind

/-- The number of a kind on the wire. -/
def code : RecordKind → UInt8
  | isInclude => 1
  | isExclude => 2
  | toInclude => 3
  | toExclude => 4
  | allow => 5
  | block => 6

/-- The kind with a given number. -/
def ofCode? : Nat → Option RecordKind
  | 1 => some isInclude
  | 2 => some isExclude
  | 3 => some toInclude
  | 4 => some toExclude
  | 5 => some allow
  | 6 => some block
  | _ => none

theorem ofCode?_code (k : RecordKind) : ofCode? k.code.toNat = some k := by
  cases k <;> rfl

/-- Whether records of this kind answer queries. -/
def isCurrentState : RecordKind → Bool
  | isInclude | isExclude => true
  | _ => false

/-- Whether the sources are those that are not wanted out of all. -/
def listsExceptions : RecordKind → Bool
  | isExclude | toExclude => true
  | _ => false

/-- The short name of a kind. -/
def text : RecordKind → String
  | isInclude => "IS_IN"
  | isExclude => "IS_EX"
  | toInclude => "TO_IN"
  | toExclude => "TO_EX"
  | allow => "ALLOW"
  | block => "BLOCK"

/-- The kind with a given short name. -/
def ofText? (s : String) : Option RecordKind :=
  [isInclude, isExclude, toInclude, toExclude, allow, block].find? fun kind => kind.text == s

end RecordKind

/-- One group's record in a report. The order of the sources, and repetitions, are kept. -/
structure Record where
  kind : RecordKind
  group : Address
  sources : List Address
  deriving DecidableEq, Inhabited

namespace Record

/-- The length on the wire. -/
def encodedLength (r : Record) : Nat := 4 + r.group.width * (1 + r.sources.length)

/-- Kind, group and comma separated sources. -/
def text (r : Record) : String :=
  r.kind.text ++ " " ++ r.group.text ++ " " ++ ",".intercalate (r.sources.map Address.text)

end Record

/-- A report about some groups. -/
structure Report where
  records : List Record
  deriving DecidableEq, Inhabited

namespace Report

/-- The length of a report's header. -/
def headerLength : Nat := 8

/-- The longest report that fits an IP packet with its header and a router alert. -/
def maxLength : Nat := 65471

/-- The length of records on the wire, one after the other. -/
def recordsLength : List Record → Nat
  | [] => 0
  | r :: rest => r.encodedLength + recordsLength rest

/-- The length on the wire. -/
def encodedLength (r : Report) : Nat := headerLength + recordsLength r.records

/-- Whether there is nothing to report. -/
def isEmpty (r : Report) : Bool := r.records.isEmpty

/-- The records' texts, joined by plus signs. -/
def text (r : Report) : String := " + ".intercalate (r.records.map Record.text)

end Report

end MulticastTunnel
