import Pontus.Lib.Bytes

/-!
# Network addresses

`host:port` texts, with a host that has colons of its own in square brackets.
-/

namespace Pontus.Lib

def colon : UInt8 := ':'.toUInt8

def openBracket : UInt8 := '['.toUInt8

def closeBracket : UInt8 := ']'.toUInt8

def cutLastColon (text : Bytes) : Option (Bytes × Bytes) :=
  (cutAt colon text.reverse).map fun (after, before) => (before.reverse, after.reverse)

def splitHostPort (hostport : Bytes) : Option (Bytes × Bytes) :=
  match cutLastColon hostport with
  | none => none
  | some (before, port) =>
    if hostport.head? = some openBracket then
      -- the first `]` has to stand just before the last colon
      match cutAt closeBracket hostport with
      | none => none
      | some (bracketed, _) =>
        let host := bracketed.drop 1
        if before ≠ bracketed ++ [closeBracket] then none
        else if openBracket ∈ host ++ port ∨ closeBracket ∈ port then none
        else some (host, port)
    else if colon ∈ before then none
    else if openBracket ∈ hostport ∨ closeBracket ∈ hostport then none
    else some (before, port)

def joinHostPort (host port : Bytes) : Bytes :=
  if colon ∈ host then openBracket :: host ++ closeBracket :: colon :: port
  else host ++ colon :: port

theorem joinHostPort_ne_nil (host port : Bytes) : joinHostPort host port ≠ [] := by
  unfold joinHostPort
  split <;> simp

example : splitHostPort (ascii "[::1]:5432") = some (ascii "::1", ascii "5432") := by decide

end Pontus.Lib
