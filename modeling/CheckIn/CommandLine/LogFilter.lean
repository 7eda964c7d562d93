/-
# Which records are shown

A filter is a list of directives, separated by commas.  A directive is a level for everything, or
a part of the program with a level for it; of the directives that concern a part of the program
the one that names it most closely counts.
-/
import CheckIn.Log

namespace CheckIn.CommandLine

/-- How far down records are shown. -/
inductive LogLimit
  | off
  | downTo (level : LogLevel)
deriving DecidableEq, Repr

namespace LogLimit

/-- Whether records of a level are shown. -/
def shows (limit : LogLimit) (level : LogLevel) : Bool :=
  match limit with
  | off => false
  | downTo lowest => lowest.shows level

/-- The limit of a name or a digit. -/
def ofText? (text : String) : Option LogLimit :=
  match String.ofList (text.toList.map Char.toLower) with
  | "off" | "0" => some off
  | "error" | "1" => some (downTo .error)
  | "warn" | "2" => some (downTo .warn)
  | "info" | "3" => some (downTo .info)
  | "debug" | "4" => some (downTo .debug)
  | "trace" | "5" => some (downTo .trace)
  | _ => none

end LogLimit

/-- A limit for the parts of the program whose name begins with `target`; with the empty one, for
everything. -/
structure LogDirective where
  target : String
  limit : LogLimit
deriving DecidableEq, Repr

/-- Whether a character may stand in the name of a part of the program. -/
def isTargetChar (c : Char) : Bool :=
  c.isAlphanum || c = '_' || c = ':' || c = '-' || decide (0x80 ≤ c.toNat)

/-- The directive that a text is, if it is one.  A part without a level is shown completely. -/
def LogDirective.ofText? (text : String) : Option LogDirective :=
  match LogLimit.ofText? text with
  | some limit => some ⟨"", limit⟩
  | none =>
    let target := text.toList.takeWhile isTargetChar
    if target.isEmpty then none
    else
      match text.toList.dropWhile isTargetChar with
      | [] | ['='] => some ⟨String.ofList target, .downTo .trace⟩
      | '=' :: level =>
        (LogLimit.ofText? (String.ofList level)).map fun limit => ⟨String.ofList target, limit⟩
      | _ => none

/-- The directives of a filter.  What is no directive is left out, and if nothing remains, errors
are shown. -/
def logDirectives (filter : String) : List LogDirective :=
  let found := ((filter.toList.splitOn ',').map String.ofList).filterMap LogDirective.ofText?
  if found.isEmpty then [⟨"", .downTo .error⟩] else found

/-- The closer of two directives; of two that are equally close, the later one. -/
def closer (best : Option LogDirective) (next : LogDirective) : Option LogDirective :=
  match best with
  | none => some next
  | some best => if best.target.length ≤ next.target.length then some next else some best

/-- The limit of a filter for a part of the program. -/
def logLimit (filter target : String) : LogLimit :=
  let relevant := (logDirectives filter).filter fun directive =>
    directive.target.toList.isPrefixOf target.toList
  match relevant.foldl closer none with
  | some directive => directive.limit
  | none => .off

end CheckIn.CommandLine
