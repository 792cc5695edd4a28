import DocAudit.Proofs.DocBlock.Worker
import DocAudit.Proofs.Signature.Worker

namespace DocAudit

/-!
# Parsers that are used again

A parser can be asked to read a list and to forget what it read, in any order and
as often as one likes. Reading a list may fail in any state, with whatever its fields
hold then, and the next list is read all the same as by a new parser. The main result
is `parsers_read_afresh`.
-/

namespace Machine

/-- What a parser can be asked to do. -/
inductive Request (ι : Type) where
  | process (items : List ι)
  | reset
  deriving Repr, DecidableEq

namespace Parser

variable {reading : Reading σ ε δ φ ι α}

/-- What a request makes of a parser, whether it fails or not. -/
def afterRequest
    (parser : Parser σ ε δ φ ι α) :
    Request ι → Parser σ ε δ φ ι α
  | .process items => (parser.process items).2
  | .reset => parser.reset

/-- What a history of requests makes of a parser. -/
def after
    (parser : Parser σ ε δ φ ι α)
    (requests : List (Request ι)) :
    Parser σ ε δ φ ι α :=
  requests.foldl afterRequest parser

/-- No request changes the way of reading. -/
theorem reading_afterRequest
    (parser : Parser σ ε δ φ ι α)
    (request : Request ι) :
    (parser.afterRequest request).reading = parser.reading := by
  cases request <;> rfl

theorem reading_after
    (parser : Parser σ ε δ φ ι α)
    (requests : List (Request ι)) :
    (parser.after requests).reading = parser.reading := by
  induction requests generalizing parser with
  | nil => rfl
  | cons request rest inductionHypothesis =>
      exact (inductionHypothesis (parser.afterRequest request)).trans
        (parser.reading_afterRequest request)

/-- Parsers with one way of reading read a list alike, wherever they stand. -/
theorem process_eq_of_reading_eq
    {parser other : Parser σ ε δ φ ι α}
    (sameReading : parser.reading = other.reading)
    (items : List ι) :
    parser.process items = other.process items := by
  obtain ⟨reading, situation⟩ := parser
  obtain ⟨otherReading, otherSituation⟩ := other
  obtain rfl : reading = otherReading := sameReading
  rfl

/-- A parser that reads every list as a new one does, after any history of requests. -/
structure ReadsAfresh
    (parser : Parser σ ε δ φ ι α)
    (run : List ι → Run σ ε φ α) :
    Prop where
  process_after :
    ∀ (requests : List (Request ι)) (items : List ι),
      (parser.after requests).process items = parser.process items
  run_eq :
    ∀ items : List ι, (parser.process items).1 = run items

theorem readsAfresh (reading : Reading σ ε δ φ ι α) :
    ReadsAfresh (ofReading reading) reading.run where
  process_after requests items :=
    process_eq_of_reading_eq (reading_after (ofReading reading) requests) items
  run_eq _ := rfl

end Parser

end Machine

/--
The parsers of parameter lists and of documentation blocks read every list as new
parsers do, whatever they were asked before, and so do the parsers that work in place.
-/
theorem parsers_read_afresh (config : Config) :
    (Signature.Parser.ofConfig config).ReadsAfresh (Signature.run config) ∧
      (Machine.Parser.ofReading (Signature.Worker.reading config)).ReadsAfresh
        (Signature.run config) ∧
      (DocBlock.Parser.ofConfig config).ReadsAfresh (DocBlock.run config) ∧
      (Machine.Parser.ofReading (DocBlock.Worker.reading config)).ReadsAfresh
        (DocBlock.run config) := by
  have signatureInPlace := Machine.Parser.readsAfresh (Signature.Worker.reading config)
  have docBlockInPlace := Machine.Parser.readsAfresh (DocBlock.Worker.reading config)
  rw [Signature.Worker.run_reading] at signatureInPlace
  rw [DocBlock.Worker.run_reading] at docBlockInPlace
  exact
    ⟨Machine.Parser.readsAfresh _, signatureInPlace, Machine.Parser.readsAfresh _,
      docBlockInPlace⟩

/-- Without a reset, the next list would go on with the default that was refused. -/
example :
    let stopped :=
      ((Machine.Parser.ofReading (Signature.Worker.reading .standard)).process
        [⟨.typeWord, "Optional", ⟨1, 1⟩⟩, ⟨.parameterName, "$a", ⟨1, 10⟩⟩,
          ⟨.equals, "=", ⟨1, 13⟩⟩, ⟨.other, "1", ⟨1, 15⟩⟩]).2.situation
    (Signature.Worker.scan .standard stopped [⟨.parameterName, "$b", ⟨2, 1⟩⟩]).fault? =
      some (.unreadable (.optionalDefault ⟨.other, "1", ⟨1, 15⟩⟩ "1$b" "undef")) :=
  rfl

end DocAudit
