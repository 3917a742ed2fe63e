import UempPlugin.Ref.Logger

/-!
# `saveAsFile` and its stream

`std::ofstream fout(filePath)`, `fout << node` and `fout.close()`, call by call.
The emitter hands the text over in pieces. A stream that fails remembers it in
its state bits, and from then on takes nothing; it throws only if its exception
mask says so, and nobody sets one. What is in the buffer when the stream is
closed may not all reach the file.
-/

namespace UempPlugin.Ref.Log

open Yaml (Node)

/-- `std::ofstream`: is a file open behind it, is `failbit` or `badbit` set,
does its mask make a failure throw, and the bytes it has taken. -/
structure OFStream where
  isOpen : Bool
  failed : Bool
  exceptions : Bool
  taken : List UInt8

namespace OFStream

/-- The constructor with a path, which also truncates the file. The mask is
empty, and `exceptions` is never called. -/
def opening (opens : Bool) : OFStream := ⟨opens, !opens, false, []⟩

/-- `write`, when `count` bytes of the piece can be had. -/
def write (s : OFStream) (piece : List UInt8) (count : Nat) : OFStream :=
  if s.failed then s
  else { s with failed := count < piece.length, taken := s.taken ++ piece.take count }

/-- `fout << node`, piece by piece. -/
def writes (s : OFStream) (pieces : List (List UInt8 × Nat)) : OFStream :=
  pieces.foldl (fun s w => s.write w.1 w.2) s

/-- `close`, when the last `lost` bytes do not reach the file. -/
def close (s : OFStream) (lost : Nat) : OFStream :=
  { s with
    isOpen := false
    failed := s.failed || !s.isOpen || 0 < lost
    taken := s.taken.take (s.taken.length - lost) }

/-- What ends every call: a failure the mask asks for is thrown. -/
def clear : EStateM String OFStream Unit := fun s =>
  if s.failed && s.exceptions then .error "basic_ios::clear: iostream error" s else .ok () s

/-- One piece of `fout << node`. -/
def put (w : List UInt8 × Nat) : EStateM String OFStream Unit := do
  modify fun s => s.write w.1 w.2
  clear

end OFStream

/-- How the file operations of one `saveAsFile` end: does the file open, the
pieces with what could be had of each, and what closing loses. -/
structure SaveOps (W : World) (node : Node) where
  opened : Bool
  pieces : List (List UInt8 × Nat)
  lost : Nat
  text : (pieces.map Prod.fst).flatten = W.emit node
  counts : ∀ w ∈ pieces, w.2 ≤ w.1.length
  losses : lost ≤ ((OFStream.opening opened).writes pieces).taken.length

variable {W : World} {node : Node}

/-- The `try` block of `saveAsFile`, from the constructor on. -/
def SaveOps.calls (ops : SaveOps W node) : EStateM String OFStream Unit := do
  OFStream.clear
  ops.pieces.forM OFStream.put
  modify fun fout => fout.close ops.lost
  OFStream.clear

/-- The files, with what the stream took in place of what was at the path. -/
def SaveOps.filesWith (ops : SaveOps W node) (filePath : String) (fout : OFStream)
    (files : W.File → Option (List UInt8)) : W.File → Option (List UInt8) :=
  if ops.opened then Function.update files (W.resolve filePath) (some fout.taken) else files

/-- `YamlToolPrivate::saveAsFile`. -/
def saveThrough (node : Node) (filePath : String) (ops : SaveOps W node) : LogM W Unit := do
  if !node.isDefined || node.isNull then
    throw (.runtimeError "failed to save config file: node is invalid")
  match ops.calls (OFStream.opening ops.opened) with
  | .ok _ fout => modify fun s => { s with files := ops.filesWith filePath fout s.files }
  | .error what fout =>
      modify fun s => { s with files := ops.filesWith filePath fout s.files }
      throw (.runtimeError ("failed to save config file: " ++ filePath ++ "error: " ++ what))

/-- The stream when `saveAsFile` is done with it, if no call throws. -/
def SaveOps.fout (ops : SaveOps W node) : OFStream :=
  ((OFStream.opening ops.opened).writes ops.pieces).close ops.lost

/-- What is left of it for the callers. -/
def SaveOps.outcome (ops : SaveOps W node) : SaveOutcome :=
  if ops.opened then .written ops.fout.taken.length else .notOpened

/-- The `try` block of `loadDefaultConfig` up to the text that the default
configuration is complete, which goes out before its path is made absolute. -/
def announce (env : DefaultEnv W) (rootNode : Node) (configFilePath : String) : LogM W Unit := do
  saveAsFile rootNode configFilePath env.save
  modify fun s => { s with configFilePath := configFilePath }

end UempPlugin.Ref.Log
