/-
# The system under vmtop

What the system calls that vmtop makes for one virtual machine return (`Sys`), and the
functions of `src/utils.c`: `read_file`, `get_time_str` and `str_to_int`.

A buffer that a file is read into is an uninitialised array of the caller, so it
comes with contents of its own, and what `read` does not overwrite stays in it.  They are
what earlier calls have left on the stack, so nothing is said about them: where two runs are
compared, each has its own.
-/

import Vmtop.Lib.Scan
import Vmtop.Type

namespace Vmtop

open CText

/-- What the calls made for one entry of the qemu directory find.  Each entry has a
`Sys` of its own, so files may change from one to the next. -/
structure Sys where
  /-- The contents of a file, by its path; `none` when it cannot be read. -/
  file : Text → Option Text
  /-- The memory from the buffer on that the file is read into, as it was before: the old
  contents of the buffer, and what lies behind it. -/
  stale : Text → Text
  /-- The address of that buffer. -/
  base : Text → ℤ
  /-- The entries of a directory; `none` when it cannot be opened. -/
  taskDir : Text → Option (List Dirent)
  /-- Whether `malloc` in `add_domains` succeeds. -/
  mallocDomains : Bool
  /-- Whether `malloc` in `get_child_pid` succeeds. -/
  mallocThreads : Bool

/-- `%u` of an `int`. -/
def printU (z : ℤ) : Text := decimal (z % 2 ^ 32).toNat

/-- `read_file(buf, bufsize, path)`: the result and the buffer afterwards.
`content` is what the file holds, `none` when `open` or `read` fails. -/
def readFile (content : Option Text) (bufsize : ℕ) (buf : Text) : ℤ × Text :=
  match content with
  | none => (-1, buf)
  | some s =>
      let got := s.take (bufsize - 1)
      -- the NUL is written only behind a nonempty text
      if got.isEmpty then (0, buf) else (got.length, got ++ nul :: buf.drop (got.length + 1))

/-- `TIME_STR_MAX`. -/
def timeStrMax : ℕ := 40

/-- The fields of `struct tm` that the time is made of, as they are shown. -/
structure Tm where
  year : ℤ
  mon : ℕ
  mday : ℕ
  hour : ℕ
  min : ℕ
  sec : ℕ

/-- `strftime` with `%Y-%m-%d %H:%M:%S`. -/
def Tm.text (t : Tm) : Text :=
  decimalInt t.year ++ '-' :: decimal2 t.mon ++ '-' :: decimal2 t.mday ++ ' ' :: decimal2 t.hour ++
    ':' :: decimal2 t.min ++ ':' :: decimal2 t.sec

/-- `get_time_str`: `tm` is what `localtime` returns, `none` for a null pointer; the
result is `none` where the function returns `-1`. -/
def getTimeStr (tm : Option Tm) : Option Text :=
  tm.bind fun t => if t.text.length < timeStrMax then some t.text else none

/-- `str_to_int`. -/
def strToInt (str : Text) : ℤ :=
  match strtol str with
  | none => -1
  | some (sl, rest) =>
      if rest ≠ [] then -1 else if 2 ^ 31 - 1 < sl ∨ sl < -2 ^ 31 then -1 else sl

end Vmtop
