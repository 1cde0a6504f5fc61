/-
# A stat line is read back

The stat line of a process holds its pid, its name in parentheses, its state and then
some forty numbers (`StatFields`, with the names that proc(5) gives them).
`get_proc_stat` looks for the name between the last `(` and the last `)` of the line and
scans what follows.  Nothing behind the name has a parenthesis, so the last `)` ends the
name and every number is stored in its own field, whatever the name is.  The last `(`
begins the name only if the name has none (`getProcStat_decoded_iff`).
-/

import Vmtop.Lib.Numerals
import Vmtop.Refresh.Buffers

namespace Vmtop

open CText CArray

/-! ### The line -/

/-- The fields of a stat line, in their order; `more` are those behind `processor`. -/
structure StatFields where
  pid : UInt32
  comm : Text
  state : Char
  ppid : Int32
  pgrp : Int32
  session : Int32
  ttyNr : Int32
  tpgid : Int32
  flags : U64
  minflt : U64
  cminflt : U64
  majflt : U64
  cmajflt : U64
  utime : U64
  stime : U64
  cutime : U64
  cstime : U64
  priority : Int64
  nice : Int64
  numThreads : Int32
  itrealvalue : Int64
  starttime : U64
  vsize : U64
  rss : Int64
  rsslim : U64
  startcode : U64
  endcode : U64
  startstack : U64
  kstkesp : U64
  kstkeip : U64
  signal : U64
  blocked : U64
  sigignore : U64
  sigcatch : U64
  wchan : U64
  nswap : U64
  cnswap : U64
  exitSignal : Int32
  processor : Int32
  more : List Int64
  comm_length : comm.length ≤ 15
  nul_notMem_comm : nul ∉ comm
  state_notMem : state ∉ ['(', ')', nul]

namespace StatFields

variable (f : StatFields)

/-- The numbers behind the state, as `get_proc_stat` scans them. -/
def numerals : List (Numeral Task) :=
  [.int f.ppid fun n t => { t with ppid := n },
    .int f.pgrp fun n t => { t with pgrd := n },
    .skipInt f.session.toInt64, .skipInt f.ttyNr.toInt64, .skipInt f.tpgid.toInt64,
    .ulong f.flags fun n t => { t with flags := toU64 n },
    .ulong f.minflt fun n t => { t with minFlt := toU64 n },
    .ulong f.cminflt fun n t => { t with cminFlt := toU64 n },
    .ulong f.majflt fun n t => { t with majFlt := toU64 n },
    .ulong f.cmajflt fun n t => { t with cmajFlt := toU64 n },
    .ulong f.utime fun n t => { t with dfx := Function.update t.dfx .utime (toU64 n) },
    .ulong f.stime fun n t => { t with dfx := Function.update t.dfx .stime (toU64 n) },
    .ulong f.cutime fun n t => { t with cutime := toU64 n },
    .ulong f.cstime fun n t => { t with cstime := toU64 n },
    .skipInt f.priority, .skipInt f.nice,
    .int f.numThreads fun n t => { t with nlwp := n },
    .long f.itrealvalue fun n t => { t with alarm := n },
    .ulong f.starttime fun n t => { t with startTime := toU64 n },
    .ulong f.vsize fun n t => { t with vsize := toU64 n },
    .long f.rss fun n t => { t with rss := n },
    .ulong f.rsslim fun n t => { t with rssRlim := toU64 n },
    .skipUint f.startcode, .skipUint f.endcode, .skipUint f.startstack, .skipUint f.kstkesp,
    .skipUint f.kstkeip,
    .skipWord f.signal, .skipWord f.blocked, .skipWord f.sigignore, .skipWord f.sigcatch,
    .skipUint f.wchan, .skipUint f.nswap, .skipUint f.cnswap, .skipInt f.exitSignal.toInt64,
    .int f.processor fun n t => { t with processor := n }]

/-- The line up to the name. -/
def head : Text := decimal f.pid.toNat ++ [' ']

/-- The line behind `processor`. -/
def tail : Text := written (f.more.map Numeral.skipInt : List (Numeral Task)) ++ ['\n']

/-- The line with a given end: the numbers that are scanned come before it. -/
def textWith (rest : Text) : Text :=
  f.head ++ '(' :: (f.comm ++ ')' :: ' ' :: f.state :: (written f.numerals ++ rest))

/-- The stat line. -/
def text : Text := f.textWith f.tail

/-- The record that holds what the line says; its other fields are those of `t`. -/
def decoded (t : Task) : Task :=
  { t with
    vmname := f.comm
    state := f.state
    ppid := f.ppid.toInt
    pgrd := f.pgrp.toInt
    flags := f.flags
    minFlt := f.minflt
    cminFlt := f.cminflt
    majFlt := f.majflt
    cmajFlt := f.cmajflt
    dfx := Function.update (Function.update t.dfx .utime f.utime) .stime f.stime
    cutime := f.cutime
    cstime := f.cstime
    nlwp := f.numThreads.toInt
    alarm := f.itrealvalue.toInt
    startTime := f.starttime
    vsize := f.vsize
    rss := f.rss.toInt
    rssRlim := f.rsslim
    processor := f.processor.toInt }

/-! ### Behind the name -/

/-- The format of `get_proc_stat` is that of the line. -/
theorem statFormat_eq :
    statFormat = .into .char (fun n t => { t with state := Char.ofNat n.toNat }) ::
      formatOf f.numerals := by
  simp only [statFormat, List.intersperse, formatOf, numerals, List.flatMap_cons,
    List.flatMap_nil, List.cons_append, List.nil_append]
  rfl

@[simp] theorem toU64_toNat (n : U64) : toU64 n.toNat = n := by
  simp [toU64]

/-- **Every number is stored in its own field.** -/
theorem sscanf_numerals {rest : Text} (hr : ∀ c ∈ rest.head?, isSpace c = true) (name : Text)
    (t : Task) :
    sscanf statFormat (f.state :: (written f.numerals ++ rest)) { t with vmname := name } =
      { f.decoded t with vmname := name } := by
  rw [f.statFormat_eq, sscanf, Conv.scan]
  dsimp only
  rw [sscanf_written _ hr]
  simp only [numerals, List.foldl_cons, List.foldl_nil, Numeral.int, Numeral.long, Numeral.ulong,
    Numeral.skipInt, Numeral.skipUint, Numeral.skipWord, id_eq, toU64_toNat, Int.toNat_natCast,
    Char.ofNat_toNat]
  rfl

/-- What stands behind the name has no parenthesis and no NUL. -/
theorem notMem_behind {rest : Text} (hr : rest ⊆ f.tail) {c : Char} (hc : c ∈ ['(', ')', nul]) :
    c ∉ ' ' :: f.state :: (written f.numerals ++ rest) := by
  have hplain : ∀ d : Char, d.isDigit = true ∨ d = '-' ∨ d = ' ' → d ≠ c := by
    rintro d hd rfl
    revert hc
    rcases hd with hd | rfl | rfl
    · simp only [List.mem_cons, List.not_mem_nil, or_false]
      rintro (rfl | rfl | rfl) <;> exact absurd hd (by decide)
    · decide
    · decide
  have hstate : c ≠ f.state := fun he => f.state_notMem (he ▸ hc)
  have htail : c ∉ f.tail := by
    simp only [tail, List.mem_append, List.mem_singleton, not_or]
    refine ⟨fun h => hplain c (mem_written h) rfl, ?_⟩
    rintro rfl
    exact absurd hc (by decide)
  simp only [List.mem_cons, List.mem_append, not_or]
  exact ⟨(hplain ' ' (by decide)).symm, hstate, fun h => hplain c (mem_written h) rfl,
    fun h => htail (hr h)⟩

/-- Nor has what stands before it a NUL. -/
theorem nul_notMem_textWith {rest : Text} (hr : rest ⊆ f.tail) : nul ∉ f.textWith rest := by
  have hbehind := f.notMem_behind hr (c := nul) (by decide)
  have hpid : nul ∉ decimal f.pid.toNat := notMem_decimal rfl
  have hcomm := f.nul_notMem_comm
  simp only [textWith, head, List.mem_append, List.mem_cons, List.not_mem_nil, or_false, not_or]
    at hbehind ⊢
  exact ⟨⟨hpid, by decide⟩, by decide, hcomm, by decide, hbehind⟩

/-- **The numbers are within the buffer**: what it cuts off is behind them. -/
theorem take_text : ∃ rest, rest ⊆ f.tail ∧ (∀ c ∈ rest.head?, isSpace c = true) ∧
    f.text.take (bufSize - 1) = f.textWith rest := by
  have hpid : (decimal f.pid.toNat).length ≤ 10 :=
    length_decimal_le (by decide) (f.pid.toNat_lt.trans (by decide))
  have hnumerals : (written f.numerals).length ≤ 21 * 36 := length_written_le f.numerals
  have hcomm := f.comm_length
  have hsplit (rest : Text) : f.textWith rest = f.textWith [] ++ rest := by
    simp only [textWith, List.append_assoc, List.cons_append, List.append_nil]
  have hlength : (f.textWith []).length ≤ bufSize - 1 := by
    simp only [textWith, head, List.length_append, List.length_cons, List.length_nil]
    unfold bufSize
    omega
  refine ⟨f.tail.take (bufSize - 1 - (f.textWith []).length), List.take_subset _ _, ?_, ?_⟩
  · intro c hc
    have hhead : c ∈ f.tail.head? := by
      generalize bufSize - 1 - (f.textWith []).length = k at hc
      cases k with
      | zero => cases hc
      | succ k => rwa [List.head?_take, if_neg (Nat.succ_ne_zero k)] at hc
    revert hhead
    unfold tail
    cases f.more with
    | nil =>
        rintro ⟨⟩
        decide
    | cons z more =>
        rintro ⟨⟩
        decide
  · rw [text, hsplit, hsplit (f.tail.take _), List.take_append, List.take_of_length_le hlength]

end StatFields

/-! ### The name -/

variable {sys : Sys} {t : Task} {f : StatFields}

section Name
variable {rest before name : Text}

/-- The last `(` of the line is the last one of the name, or the one in front of it. -/
theorem StatFields.last_open (hsub : rest ⊆ f.tail) (hname : '(' :: f.comm = before ++ '(' :: name)
    (hlast : '(' ∉ name) :
    strrchr '(' (f.textWith rest) = some (f.head ++ before).length := by
  have hline : f.textWith rest = (f.head ++ before) ++ '(' :: (name ++ ')' :: ' ' :: f.state ::
      (written f.numerals ++ rest)) := by
    rw [textWith, ← List.cons_append, hname]
    simp only [List.append_assoc, List.cons_append]
  rw [hline]
  refine strrchr_append ?_ _
  rw [List.mem_append, List.mem_cons, not_or, not_or]
  exact ⟨hlast, by decide, f.notMem_behind hsub (by decide)⟩

/-- The last `)` is the one behind the name. -/
theorem StatFields.last_close (hsub : rest ⊆ f.tail) :
    strrchr ')' (f.textWith rest) = some (f.head ++ '(' :: f.comm).length := by
  have hline : f.textWith rest = (f.head ++ '(' :: f.comm) ++ ')' :: ' ' :: f.state ::
      (written f.numerals ++ rest) := by
    simp only [textWith, List.append_assoc, List.cons_append]
  rw [hline]
  exact strrchr_append (f.notMem_behind hsub (by decide)) _

/-- The name is as long as they are apart. -/
theorem StatFields.length_name (hname : '(' :: f.comm = before ++ '(' :: name) :
    (f.head ++ '(' :: f.comm).length = (f.head ++ before).length + 1 + name.length := by
  rw [hname]
  simp only [List.length_append, List.length_cons]
  omega

/-- The line in the buffer, with whatever the buffer held before behind it. -/
theorem parseStat_textWith (hsub : rest ⊆ f.tail) (hspace : ∀ c ∈ rest.head?, isSpace c = true)
    (hname : '(' :: f.comm = before ++ '(' :: name) (hlast : '(' ∉ name)
    (hlen : (f.textWith rest).length < 2 ^ 31) (base : ℤ) (junk : Text) (t : Task) :
    parseStat base (f.textWith rest ++ nul :: junk) t =
      .ok (1, { f.decoded t with vmname := name }) := by
  have hbuf : cstr (f.textWith rest ++ nul :: junk) = f.textWith rest :=
    cstr_append_nul (f.nul_notMem_textWith hsub) junk
  have hi := StatFields.last_open hsub hname hlast
  have hj := StatFields.last_close hsub
  have hapart := StatFields.length_name hname
  have hshort : name.length ≤ domainNameMax - 1 := by
    have hcomm := f.comm_length
    have hsum := congrArg List.length hname
    rw [List.length_append, List.length_cons, List.length_cons] at hsum
    unfold domainNameMax
    omega
  have haccepted := (not_rejected_iff base hi hj hlen).2
    ⟨by omega, by rw [hapart]; unfold domainNameMax at hshort ⊢; omega⟩
  have hdist : nameLength base (f.textWith rest) = name.length := by
    rw [nameLength_eq base hi hj hlen, hapart]
    omega
  have hvmname : ((f.textWith rest).drop ((f.head ++ before).length + 1)).take name.length =
      name := by
    have hsplit : f.textWith rest = (f.head ++ before ++ ['(']) ++
        (name ++ ')' :: ' ' :: f.state :: (written f.numerals ++ rest)) := by
      rw [StatFields.textWith, ← List.cons_append, hname]
      simp only [List.append_assoc, List.cons_append, List.nil_append]
    rw [hsplit, List.drop_left' (by rw [List.length_append]; rfl), List.take_left]
  have hdrop : (f.textWith rest ++ nul :: junk).drop ((f.head ++ '(' :: f.comm).length + 2) =
      f.state :: (written f.numerals ++ rest) ++ nul :: junk := by
    have hsplit : f.textWith rest ++ nul :: junk = (f.head ++ '(' :: f.comm ++ [')', ' ']) ++
        (f.state :: (written f.numerals ++ rest) ++ nul :: junk) := by
      simp only [StatFields.textWith, List.append_assoc, List.cons_append, List.nil_append]
    rw [hsplit, List.drop_left' (by rw [List.length_append]; rfl)]
  have hnul : nul ∉ f.state :: (written f.numerals ++ rest) := fun h =>
    f.notMem_behind hsub (c := nul) (by decide) (List.mem_cons_of_mem _ h)
  rw [parseStat_of_accepted (hbuf.symm ▸ haccepted) (hbuf.symm ▸ hi) (hbuf.symm ▸ hj), hbuf, hdist,
    Int.toNat_natCast, hvmname, hdrop, cstr_append_nul hnul]
  exact congrArg (fun t => Except.ok (1, t)) (f.sscanf_numerals hspace name t)

end Name

/-- **What `get_proc_stat` makes of a stat line**: every number in its field, and for the
name what stands behind the last `(` in front of the numbers. -/
theorem getProcStat_text (hfile : sys.file (statPath t) = some f.text) :
    ∃ before name, '(' :: f.comm = before ++ '(' :: name ∧ '(' ∉ name ∧
      getProcStat sys t = .ok (1, { f.decoded t with vmname := name }) := by
  obtain ⟨before, name, hname, hlast⟩ : ∃ before name, '(' :: f.comm = before ++ '(' :: name ∧
      '(' ∉ name := exists_last_of_mem List.mem_cons_self
  refine ⟨before, name, hname, hlast, ?_⟩
  obtain ⟨rest, hsub, hspace, htake⟩ := f.take_text
  have hempty : (f.textWith rest).isEmpty = false := by
    simp [StatFields.textWith]
  simp only [getProcStat, hfile, readFile, htake, hempty, Bool.false_eq_true, if_false]
  rw [if_neg (Int.not_lt.2 (Int.natCast_nonneg _))]
  have hlen : (f.textWith rest).length < 2 ^ 31 := by
    rw [← htake, List.length_take]
    unfold bufSize
    omega
  exact parseStat_textWith hsub hspace hname hlast hlen _ _ t

/-- **A stat line is read back exactly when the name has no `(` in it.** -/
theorem getProcStat_decoded_iff (hfile : sys.file (statPath t) = some f.text) :
    getProcStat sys t = .ok (1, f.decoded t) ↔ '(' ∉ f.comm := by
  obtain ⟨before, name, hname, hlast, hread⟩ := getProcStat_text hfile
  have hcomm : { f.decoded t with vmname := name } = f.decoded t ↔ name = f.comm := by
    constructor
    · exact fun h => congrArg Task.vmname h
    · rintro rfl
      rfl
  rw [hread, Except.ok.injEq, Prod.mk.injEq, hcomm]
  constructor
  · rintro ⟨-, rfl⟩
    exact hlast
  · intro hnot
    refine ⟨rfl, ?_⟩
    cases before with
    | nil => exact (List.cons.inj hname).2.symm
    | cons c before =>
        refine absurd ?_ hnot
        rw [(List.cons.inj hname).2]
        exact List.mem_append_right _ List.mem_cons_self

/-- A process with a given name whose numbers are all zero. -/
def namedStat (comm : Text) (hlength : comm.length ≤ 15) (hnul : nul ∉ comm) : StatFields where
  pid := 1
  comm := comm
  state := 'S'
  ppid := 0
  pgrp := 0
  session := 0
  ttyNr := 0
  tpgid := -1
  flags := 0
  minflt := 0
  cminflt := 0
  majflt := 0
  cmajflt := 0
  utime := 7
  stime := 3
  cutime := 0
  cstime := 0
  priority := 20
  nice := 0
  numThreads := 1
  itrealvalue := 0
  starttime := 500
  vsize := 4096
  rss := 300
  rsslim := 18446744073709551615
  startcode := 1
  endcode := 1
  startstack := 0
  kstkesp := 0
  kstkeip := 0
  signal := 0
  blocked := 0
  sigignore := 0
  sigcatch := 65536
  wchan := 1
  nswap := 0
  cnswap := 0
  exitSignal := 17
  processor := 2
  more := [0]
  comm_length := hlength
  nul_notMem_comm := hnul
  state_notMem := by decide

/-- The files of a host on which every stat file is the same line. -/
def statSys (line : Text) : Sys := { hostSys 1 0 [] with file := fun _ => some line }

/-- The name of a vCPU is read back. -/
theorem getProcStat_decoded_iff_vcpu :
    let f := namedStat "CPU 0/KVM".toList (by decide) (by decide)
    getProcStat (statSys f.text) Task.zero = .ok (1, f.decoded Task.zero) :=
  (getProcStat_decoded_iff rfl).2 (by decide)

/-- **A name with a parenthesis is cut**: of `a(b` the last letter is stored. -/
theorem getProcStat_decoded_cut : ¬ ∀ (sys : Sys) (t : Task) (f : StatFields),
    sys.file (statPath t) = some f.text → getProcStat sys t = .ok (1, f.decoded t) := by
  intro h
  let f := namedStat "a(b".toList (by decide) (by decide)
  have hread := h (statSys f.text) Task.zero f rfl
  have hname : (getProcStat (statSys f.text) Task.zero).toOption.map (fun p => p.2.vmname) =
      some "b".toList := by decide +kernel
  rw [hread] at hname
  revert hname
  decide

end Vmtop
