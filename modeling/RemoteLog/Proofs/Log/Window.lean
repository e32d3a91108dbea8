import RemoteLog.Log.Window
import RemoteLog.Proofs.FileSystem.Writing
import RemoteLog.Proofs.Line.Splitting

/-! # The window of a readable file

A window is read in two passes, one for its lines and one to count all lines, and the file may change
in between. If all bytes of the file can be read, the window is known from the lines that the first
pass finds and the number of those that the second one finds.

* **`Log.windowDuring guard fs fs' request`** — the window of a file that changes between the two
  passes; **`Log.windowDuring_eq`**.
* **`Log.window_eq`** — the window of a file that does not change, at any place and of any size.
* **`Log.text_eq`** — the text of a whole file. -/

namespace RemoteLog.Log

open Message

/-! ## The two passes -/

/-- The lines of a window of bytes that can all be read. -/
theorem windowLines_chunk (bytes : ByteArray) (skip limit : Nat) :
    windowLines [.chunk bytes] skip limit =
      .ok (((Line.texts bytes).drop skip).take limit) := by
  rw [windowLines]
  simp only [Line.rawLines_chunk, ← List.map_take, Line.allOk_map_ok, Except.map]
  rw [List.drop_take, Nat.add_sub_cancel_left, List.map_take, List.map_drop, Line.texts]

/-- **The answer to a window** whose lines and whose count are taken from bytes that can all be
read. -/
theorem windowOf_chunk (first second : ByteArray) (skip limit : Nat) :
    windowOf (.ok [.chunk first]) (.ok [.chunk second]) skip limit =
      let page := ((Line.texts first).drop skip).take limit
      .ok (UInt64.ofNat (skip + page.length)) (UInt64.ofNat (Line.texts second).length)
        (joinLines page) := by
  simp only [windowOf, windowLines_chunk, Line.countLines_chunk, bind, Except.bind, pure,
    Except.pure]

/-- What a reader meets in a file whose bytes can all be read. -/
theorem openFile_ofBytes {fs : FileSystem} {path : String} {place : List String}
    {bytes : ByteArray}
    (hfile : fs.resolve .use path = .ok (.entry place (.file (.ofBytes bytes)))) :
    fs.openFile path = .ok [.chunk bytes] := by
  simp only [FileSystem.openFile, hfile]
  rfl

/-! ## Windows -/

/-- **The window of a file that changes between the two passes.** The path is checked and the lines
are read before the change, and they are counted behind it. -/
def windowDuring (guard : PathGuard) (fs fs' : FileSystem) (request : RollViewLogRequest) :
    RollViewLogResponse :=
  if !guard.accepts request.path then .failure .pathNotSecure
  else if !fs.isFile request.path then .failure .fileNotFound
  else
    windowOf (fs.openFile request.path) (fs'.openFile request.path) request.skip.toNat
      request.limit.toNat

/-- Nothing changes between the passes of a window. -/
theorem windowDuring_self (guard : PathGuard) (fs : FileSystem) (request : RollViewLogRequest) :
    windowDuring guard fs fs request = window guard fs request := rfl

variable {guard : PathGuard} {fs fs' : FileSystem}

/-- A path that the guard refuses has no window. -/
theorem windowDuring_refused {request : RollViewLogRequest}
    (h : guard.accepts request.path = false) :
    windowDuring guard fs fs' request = .failure .pathNotSecure := by
  rw [windowDuring, h]
  rfl

/-- **The window of a file that changes** has lines that were there before and the number of those
that are there behind. -/
theorem windowDuring_eq (request : RollViewLogRequest)
    (haccepts : guard.accepts request.path = true) {c c' : ByteArray}
    (hbefore : fs.Holds request.path c) (hafter : fs'.Holds request.path c') :
    windowDuring guard fs fs' request =
      let page := ((Line.texts c).drop request.skip.toNat).take request.limit.toNat
      .ok (UInt64.ofNat (request.skip.toNat + page.length))
        (UInt64.ofNat (Line.texts c').length) (joinLines page) := by
  obtain ⟨place, hbefore⟩ := hbefore
  obtain ⟨place', hafter⟩ := hafter
  have hisFile : fs.isFile request.path = true := by simp only [FileSystem.isFile, hbefore]
  have hrefused : ¬ (!guard.accepts request.path) = true := by simp [haccepts]
  have hmissing : ¬ (!fs.isFile request.path) = true := by simp [hisFile]
  rw [windowDuring, if_neg hrefused, if_neg hmissing, openFile_ofBytes hbefore,
    openFile_ofBytes hafter, windowOf_chunk]

section

variable {path : String} {place : List String} {bytes : ByteArray}

/-- **The window of a readable file** ends behind its last line and knows the number of all. -/
theorem window_eq (haccepts : guard.accepts path = true)
    (hfile : fs.resolve .use path = .ok (.entry place (.file (.ofBytes bytes))))
    {skip limit : UInt32} {page : List String}
    (hpage : ((Line.texts bytes).drop skip.toNat).take limit.toNat = page) :
    window guard fs ⟨path, skip, limit⟩ =
      .ok (UInt64.ofNat (skip.toNat + page.length)) (UInt64.ofNat (Line.texts bytes).length)
        (joinLines page) := by
  have hholds : fs.Holds path bytes := ⟨place, hfile⟩
  rw [← windowDuring_self, windowDuring_eq ⟨path, skip, limit⟩ haccepts hholds hholds]
  simp only [hpage]

/-- **The text of a readable file.** -/
theorem text_eq (hfile : fs.resolve .use path = .ok (.entry place (.file (.ofBytes bytes)))) :
    text fs path = withLineBreaks (Line.texts bytes) := by
  simp only [text, openFile_ofBytes hfile, bind, Except.bind, Line.lines_chunk, Line.allOk_map_ok]

end

end RemoteLog.Log
