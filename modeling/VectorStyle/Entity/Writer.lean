import VectorStyle.Entity.Printer

/-!
# Writing into a buffer

A stylesheet is written part by part into one buffer. Each step gets what has been written so far
and appends to it, so the separators of a list stand in the buffer before the part that follows
them. The first thing that is no part of a stylesheet ends the writing, and what has been written is
lost.
-/

set_option autoImplicit false

namespace VectorStyle

/-- The buffer before the next member of a list: a separator ends it, except before the first
member. -/
def separated (separator : String) (first : Bool) (buffer : String) : String :=
  if first then buffer else buffer ++ separator

mutual

/-- Writes an entity. -/
def Entity.write (buffer : String) : Entity → Except Foreign String
  | .descriptor d => .ok (buffer ++ d.text)
  | .combinator c => .ok (buffer ++ c.text)
  | .compound parts => writeJoined "" true buffer parts
  | .sequence items => writeJoined " " true buffer items
  | .block alternatives parts => do
    let selectors ← writeAlternatives true buffer alternatives
    let body ← writeLines (selectors ++ " \x7b\n") parts
    return body ++ "\x7d\n"
  | .declaration d => d.write buffer
  | .ident n => .ok (buffer ++ n)
  | .reference n => .ok (buffer ++ ("#" ++ n))
  | .string t => .ok (buffer ++ ("\"" ++ t ++ "\""))
  | .number l => .ok (buffer ++ l.text)
  | .color c => .ok (buffer ++ c.text)
  | .function n args => do
    let call ← writeJoined ", " true (buffer ++ (n ++ "(")) args
    return call ++ ")"
  | .comma => .ok (buffer ++ ",")
  | .slash => .ok (buffer ++ "/")
  | .length l => .ok (buffer ++ l.text)
  | .foreign f => .error f

/-- Writes the members of a list with a separator between them. -/
def writeJoined (separator : String) (first : Bool) (buffer : String) :
    List Entity → Except Foreign String
  | [] => .ok buffer
  | e :: es => do
    let written ← e.write (separated separator first buffer)
    writeJoined separator false written es

/-- Writes the alternatives of a rule, each as a sequence. -/
def writeAlternatives (first : Bool) (buffer : String) :
    List (List Entity) → Except Foreign String
  | [] => .ok buffer
  | a :: as => do
    let written ← writeJoined " " true (separated ",\n" first buffer) a
    writeAlternatives false written as

/-- Writes the parts in the block of a rule, each on a line. -/
def writeLines (buffer : String) : List Entity → Except Foreign String
  | [] => .ok buffer
  | e :: es => do
    let written ← e.write (buffer ++ "  ")
    writeLines (written ++ ";\n") es

/-- Writes the terms of a declaration's groups, as one list. -/
def writeTerms (first : Bool) (buffer : String) : List (List Entity) → Except Foreign String
  | [] => .ok buffer
  | g :: gs => do
    let written ← writeJoined " " first buffer g
    writeTerms (first && g.isEmpty) written gs

/-- Writes a declaration. -/
def Declaration.write (buffer : String) : Declaration → Except Foreign String
  | ⟨property, groups⟩ => writeTerms true (buffer ++ (property ++ ": ")) groups

end

/-- Writes a stylesheet: its parts one after the other. -/
def writeStylesheet (buffer : String) (es : List Entity) : Except Foreign String :=
  es.foldlM Entity.write buffer

end VectorStyle
