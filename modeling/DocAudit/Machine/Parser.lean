import DocAudit.Machine.Run

namespace DocAudit.Machine

/-!
# Parsers

A parser reads one list of items after the other with a machine. Every list is
read from the start; between two lists the machine stays where the last one
ended, in the middle of a record if the list could not be read.
-/

/--
A way of reading lists of items: where the machine starts, how it reads a list,
and which records it has found.
-/
structure Reading (σ ε δ φ ι α : Type) where
  start : Situation σ ε δ
  scan : Situation σ ε δ → List ι → Scan (Situation σ ε δ) φ
  records : δ → List α

/-- A way of reading together with the machine that reads. -/
structure Parser (σ ε δ φ ι α : Type) where
  reading : Reading σ ε δ φ ι α
  situation : Situation σ ε δ

namespace Parser

/-- A parser that has read nothing. -/
def ofReading (reading : Reading σ ε δ φ ι α) : Parser σ ε δ φ ι α where
  reading := reading
  situation := reading.start

/-- The state in which the machine stands. -/
def state (parser : Parser σ ε δ φ ι α) : σ :=
  parser.situation.state

/-- Forget everything that was read. -/
def reset (parser : Parser σ ε δ φ ι α) : Parser σ ε δ φ ι α :=
  { parser with situation := parser.reading.start }

/-- Read a list of items from the start. -/
def process
    (parser : Parser σ ε δ φ ι α)
    (items : List ι) :
    Run σ ε φ α × Parser σ ε δ φ ι α :=
  let scan := parser.reading.scan parser.reset.situation items
  (.ofScan scan parser.reading.records, { parser with situation := scan.state })

end Parser

/-- Read a list of items with a new parser. -/
def Reading.run
    (reading : Reading σ ε δ φ ι α)
    (items : List ι) :
    Run σ ε φ α :=
  ((Parser.ofReading reading).process items).1

end DocAudit.Machine
