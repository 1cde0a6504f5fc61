/-
# The command line

`getopt` of the C library with the `arg_ops` of `parse_args`, over the arguments behind the
program name.  It takes the letters of an argument that starts with `-` one by one; a letter
with an argument takes the rest of its word, or the next word where nothing is left.  Words
that are no options are passed over, and `--` ends the options.  This is the order of the GNU
library, where `POSIXLY_CORRECT` is not set.
-/

import Vmtop.Screen

namespace Vmtop

open CText

/-- What `arg_ops` says of a letter. -/
inductive Letter
  | flag (opt : Opt)
  | takes (opt : Text → Opt)
  | invalid

/-- `"hvHd:n:bp:G"`. -/
def letter : Char → Letter
  | 'h' => .flag .h
  | 'v' => .flag .v
  | 'H' => .flag .threads
  | 'd' => .takes .d
  | 'n' => .takes .n
  | 'b' => .flag .b
  | 'p' => .takes .p
  | 'G' => .flag .G
  | _ => .invalid

/-- The letters of one word, and the option that is left without its argument. -/
def letters : Text → List Opt × Option (Text → Opt)
  | [] => ([], none)
  | c :: rest =>
      match letter c with
      | .flag opt => (opt :: (letters rest).1, (letters rest).2)
      | .invalid => (.unknown :: (letters rest).1, (letters rest).2)
      | .takes opt => if rest = [] then ([], some opt) else ([opt rest], none)

/-- What the calls of `getopt` return until it returns `-1`; `pending` is the option whose
argument is the next word. -/
def getopt : (pending : Option (Text → Opt)) → List Text → List Opt
  | none, [] => []
  | some _, [] => [.unknown]
  | some opt, optarg :: argv => opt optarg :: getopt none argv
  | none, arg :: argv =>
      if arg = "--".toList then []
      else
        match arg with
        | '-' :: c :: rest => (letters (c :: rest)).1 ++ getopt (letters (c :: rest)).2 argv
        | _ => getopt none argv

/-- `parse_args`, from the words of the command line. -/
def commandLine (argv : List Text) (g : Globals) : Except ℤ Globals :=
  parseArgs (getopt none argv) g

end Vmtop
