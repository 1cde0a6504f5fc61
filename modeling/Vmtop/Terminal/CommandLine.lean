/-
# What a command line asks for

An option may be spelled in several ways: letters without an argument may share a word, and an
argument may stand in the word of its letter or in the next.  `Spelled` lists them, and
`getopt` reads a command line exactly as it is spelled (`getopt_eq_iff`).  So vmtop starts
exactly when every number among the options is one and neither help nor the version is asked
for, and then each setting is that of its last option, whatever stands between
(`commandLine_ok_iff`).
-/

import Vmtop.Options
import Vmtop.Terminal.Interval

namespace Vmtop

open CText

/-! ### Spellings -/

/-- The options without an argument. -/
inductive Flag
  | threads | h | v | b | G

def Flag.opt : Flag → Opt
  | .threads => .threads
  | .h => .h
  | .v => .v
  | .b => .b
  | .G => .G

def Flag.char : Flag → Char
  | .threads => 'H'
  | .h => 'h'
  | .v => 'v'
  | .b => 'b'
  | .G => 'G'

/-- The options with one. -/
inductive Setting
  | d | n | p

def Setting.opt : Setting → Text → Opt
  | .d => .d
  | .n => .n
  | .p => .p

def Setting.char : Setting → Char
  | .d => 'd'
  | .n => 'n'
  | .p => 'p'

/-- A word that is no option. -/
def IsOperand (arg : Text) : Prop := arg.head? ≠ some '-' ∨ arg = "-".toList

/-- The ways to spell options in the words of a command line. -/
inductive Spelled : List Text → List Opt → Prop
  | nil : Spelled [] []
  | ended (operands : List Text) : Spelled ("--".toList :: operands) []
  | operand {argv opts} {arg : Text} (harg : IsOperand arg)
      (h : Spelled argv opts) : Spelled (arg :: argv) opts
  | flags {argv opts} {fs : List Flag} (hfs : fs ≠ []) (h : Spelled argv opts) :
      Spelled (('-' :: fs.map Flag.char) :: argv) (fs.map Flag.opt ++ opts)
  | joined {argv opts} {fs : List Flag} {o : Setting} {optarg : Text} (harg : optarg ≠ [])
      (h : Spelled argv opts) :
      Spelled (('-' :: (fs.map Flag.char ++ o.char :: optarg)) :: argv)
        (fs.map Flag.opt ++ o.opt optarg :: opts)
  | apart {argv opts} {fs : List Flag} {o : Setting} (optarg : Text) (h : Spelled argv opts) :
      Spelled (('-' :: (fs.map Flag.char ++ [o.char])) :: optarg :: argv)
        (fs.map Flag.opt ++ o.opt optarg :: opts)

variable {argv : List Text} {opts : List Opt} {g g' : Globals}

theorem letter_flag (f : Flag) : letter f.char = .flag f.opt := by
  cases f <;> rfl

theorem letter_setting (o : Setting) : letter o.char = .takes o.opt := by
  cases o <;> rfl

/-- The letters before the last are taken one by one. -/
theorem letters_flags (fs : List Flag) (rest : Text) :
    letters (fs.map Flag.char ++ rest) =
      (fs.map Flag.opt ++ (letters rest).1, (letters rest).2) := by
  induction fs with
  | nil => rfl
  | cons f fs ih =>
      rw [List.map_cons, List.cons_append, letters, letter_flag]
      dsimp only
      rw [ih]
      rfl

theorem letters_joined (fs : List Flag) (o : Setting) {optarg : Text} (harg : optarg ≠ []) :
    letters (fs.map Flag.char ++ o.char :: optarg) = (fs.map Flag.opt ++ [o.opt optarg], none) := by
  rw [letters_flags, letters, letter_setting]
  dsimp only
  rw [if_neg harg]

theorem letters_apart (fs : List Flag) (o : Setting) :
    letters (fs.map Flag.char ++ [o.char]) = (fs.map Flag.opt, some o.opt) := by
  rw [letters_flags, letters, letter_setting]
  dsimp only
  rw [if_pos rfl, List.append_nil]

/-- `--` ends the options. -/
theorem getopt_ended (argv : List Text) : getopt none ("--".toList :: argv) = [] := rfl

/-- A word of options is none of the others. -/
theorem getopt_letters {c : Char} {rest : Text} (h : '-' :: c :: rest ≠ "--".toList)
    (argv : List Text) : getopt none (('-' :: c :: rest) :: argv) =
      (letters (c :: rest)).1 ++ getopt (letters (c :: rest)).2 argv := by
  rw [getopt, if_neg h]

theorem getopt_operand {arg : Text} (h : IsOperand arg) (argv : List Text) :
    getopt none (arg :: argv) = getopt none argv := by
  have hne : arg ≠ "--".toList := by
    rintro rfl
    rcases h with h | h <;> exact absurd h (by decide)
  have hoption (c : Char) (rest : Text) : arg = '-' :: c :: rest → False := by
    rintro rfl
    rcases h with h | h
    · exact h rfl
    · cases h
  rw [getopt, if_neg hne]
  exact hoption

theorem word_cases (arg : Text) : arg = "--".toList ∨ IsOperand arg ∨
    ∃ c rest, arg = '-' :: c :: rest ∧ '-' :: c :: rest ≠ "--".toList := by
  by_cases hend : arg = "--".toList
  · exact .inl hend
  · by_cases hhead : arg.head? = some '-'
    · cases arg with
      | nil => cases hhead
      | cons c rest =>
          cases Option.some.inj hhead
          cases rest with
          | nil => exact .inr (.inl (.inr rfl))
          | cons c rest => exact .inr (.inr ⟨c, rest, rfl, hend⟩)
    · exact .inr (.inl (.inl hhead))

theorem Flag.char_ne (f : Flag) : f.char ≠ '-' := by
  cases f <;> decide

theorem Setting.char_ne (o : Setting) : o.char ≠ '-' := by
  cases o <;> decide

/-- `getopt` on the word of some flags and what may follow them. -/
theorem getopt_flags (fs : List Flag) {rest : Text} (hrest : rest.head? ≠ some '-')
    (hne : fs.map Flag.char ++ rest ≠ []) (argv : List Text) :
    getopt none (('-' :: (fs.map Flag.char ++ rest)) :: argv) =
      (letters (fs.map Flag.char ++ rest)).1 ++
        getopt (letters (fs.map Flag.char ++ rest)).2 argv := by
  have hword {c : Char} {rest : Text} (hc : c ≠ '-') : '-' :: c :: rest ≠ "--".toList := by
    intro heq
    exact hc (List.cons.inj (List.cons.inj heq).2).1
  cases fs with
  | nil =>
      cases rest with
      | nil => exact absurd rfl hne
      | cons c rest => exact getopt_letters (hword fun hc => hrest (by rw [hc]; rfl)) argv
  | cons f fs => exact getopt_letters (hword f.char_ne) argv

/-- **However options are spelled, `getopt` returns them.** -/
theorem getopt_spelled (h : Spelled argv opts) : getopt none argv = opts := by
  induction h with
  | nil => rfl
  | ended operands => exact getopt_ended operands
  | operand harg _ ih => rw [getopt_operand harg, ih]
  | @flags argv opts fs hfs _ ih =>
      have hnil : ([] : Text).head? ≠ some '-' := by decide
      have hword := getopt_flags fs hnil (by simpa using hfs) argv
      rw [letters_flags, List.append_nil] at hword
      rw [hword, letters, List.append_nil, ih]
  | @joined argv opts fs o optarg harg _ ih =>
      have hhead : (o.char :: optarg).head? ≠ some '-' := fun hc =>
        o.char_ne (Option.some.inj hc)
      rw [getopt_flags fs hhead (by simp), letters_joined fs o harg, ih, List.append_assoc]
      rfl
  | @apart argv opts fs o optarg _ ih =>
      have hhead : [o.char].head? ≠ some '-' := fun hc => o.char_ne (Option.some.inj hc)
      rw [getopt_flags fs hhead (by simp), letters_apart, getopt, ih]

/-! ### The other way round -/

/-- What the letters of a word may be, where all are valid. -/
inductive Word : Text → List Opt × Option (Text → Opt) → Prop
  | flags (fs : List Flag) : Word (fs.map Flag.char) (fs.map Flag.opt, none)
  | joined (fs : List Flag) (o : Setting) {optarg : Text} (harg : optarg ≠ []) :
      Word (fs.map Flag.char ++ o.char :: optarg) (fs.map Flag.opt ++ [o.opt optarg], none)
  | apart (fs : List Flag) (o : Setting) :
      Word (fs.map Flag.char ++ [o.char]) (fs.map Flag.opt, some o.opt)

theorem Word.cons {rest : Text} {r : List Opt × Option (Text → Opt)} (f : Flag)
    (h : Word rest r) : Word (f.char :: rest) (f.opt :: r.1, r.2) := by
  cases h with
  | flags fs => exact .flags (f :: fs)
  | joined fs o harg => exact .joined (f :: fs) o harg
  | apart fs o => exact .apart (f :: fs) o

/-- A letter that is valid is one of the options. -/
theorem letter_cases (c : Char) : (∃ f : Flag, c = f.char) ∨ (∃ o : Setting, c = o.char) ∨
    letter c = .invalid := by
  unfold letter
  split
  · exact .inl ⟨.h, rfl⟩
  · exact .inl ⟨.v, rfl⟩
  · exact .inl ⟨.threads, rfl⟩
  · exact .inr (.inl ⟨.d, rfl⟩)
  · exact .inr (.inl ⟨.n, rfl⟩)
  · exact .inl ⟨.b, rfl⟩
  · exact .inr (.inl ⟨.p, rfl⟩)
  · exact .inl ⟨.G, rfl⟩
  · exact .inr (.inr rfl)

theorem word_of_letters {word : Text} (h : .unknown ∉ (letters word).1) :
    Word word (letters word) := by
  induction word with
  | nil => exact .flags []
  | cons c rest ih =>
      rcases letter_cases c with ⟨f, rfl⟩ | ⟨o, rfl⟩ | hc
      · have hcons : letters (f.char :: rest) = (f.opt :: (letters rest).1, (letters rest).2) := by
          rw [letters, letter_flag]
        rw [hcons] at h ⊢
        exact (ih fun hmem => h (List.mem_cons_of_mem _ hmem)).cons f
      · cases rest with
        | nil =>
            rw [letters, letter_setting]
            exact .apart [] o
        | cons c rest =>
            rw [letters, letter_setting]
            exact .joined [] o (List.cons_ne_nil c rest)
      · rw [letters, hc] at h
        exact absurd List.mem_cons_self h

/-- **A command line without an invalid option is spelled in one of these ways.** -/
theorem spelled_of_getopt (argv : List Text) (h : .unknown ∉ getopt none argv) :
    Spelled argv (getopt none argv) := by
  induction hn : argv.length using Nat.strong_induction_on generalizing argv with
  | _ n ih =>
      cases argv with
      | nil => exact .nil
      | cons arg argv =>
          have hlen : argv.length < n := by
            rw [← hn]
            exact Nat.lt_succ_self _
          rcases word_cases arg with rfl | harg | ⟨c, rest, rfl, hne⟩
          · exact .ended argv
          · rw [getopt_operand harg] at h ⊢
            exact .operand harg (ih _ hlen argv h rfl)
          · rw [getopt_letters hne] at h ⊢
            rw [List.mem_append, not_or] at h
            obtain ⟨hletters, hmore⟩ := h
            have hword := word_of_letters hletters
            generalize letters (c :: rest) = r at hword hmore ⊢
            generalize hw : c :: rest = word at hword
            cases hword with
            | flags fs =>
                refine .flags ?_ (ih _ hlen argv hmore rfl)
                rintro rfl
                cases hw
            | joined fs o harg =>
                rw [List.append_assoc]
                exact .joined harg (ih _ hlen argv hmore rfl)
            | apart fs o =>
                cases argv with
                | nil => exact absurd List.mem_cons_self hmore
                | cons optarg argv =>
                    refine .apart optarg (ih argv.length ?_ argv (fun hmem => hmore ?_) rfl)
                    · exact (Nat.lt_succ_self _).trans hlen
                    · exact List.mem_cons_of_mem _ hmem

theorem Spelled.known (h : Spelled argv opts) : .unknown ∉ opts := by
  have hflags (fs : List Flag) : .unknown ∉ fs.map Flag.opt := by
    intro hmem
    obtain ⟨f, -, hf⟩ := List.mem_map.1 hmem
    cases f <;> cases hf
  have hsetting (o : Setting) (optarg : Text) : .unknown ≠ o.opt optarg := by
    cases o <;> exact nofun
  induction h with
  | nil => exact List.not_mem_nil
  | ended => exact List.not_mem_nil
  | operand _ _ ih => exact ih
  | flags _ _ ih =>
      rw [List.mem_append, not_or]
      exact ⟨hflags _, ih⟩
  | joined _ _ ih | apart _ _ ih =>
      rw [List.mem_append, List.mem_cons, not_or, not_or]
      exact ⟨hflags _, hsetting _ _, ih⟩

/-- **`getopt` reads a command line exactly as it is spelled.** -/
theorem getopt_eq_iff : Spelled argv opts ↔ getopt none argv = opts ∧ .unknown ∉ opts := by
  refine ⟨fun h => ⟨getopt_spelled h, h.known⟩, ?_⟩
  rintro ⟨rfl, h⟩
  exact spelled_of_getopt argv h

/-! ### Settings -/

/-- The value of the last option of a kind, or the one there was. -/
def lastValue (arg : Opt → Option Text) (opts : List Opt) (z : ℤ) : ℤ :=
  (opts.filterMap arg).getLast?.elim z strToInt

/-- The argument of an option `-n`. -/
def Opt.countArg : Opt → Option Text
  | .n optarg => some optarg
  | _ => none

/-- The argument of an option `-p`. -/
def Opt.monitorArg : Opt → Option Text
  | .p optarg => some optarg
  | _ => none

def Opt.isThreads : Opt → Bool
  | .threads => true
  | _ => false

def Opt.isMetered : Opt → Bool
  | .G => true
  | _ => false

/-- The options that vmtop starts with: their numbers are not negative, and they ask neither
for help nor for the version. -/
def Opt.accepted : Opt → Bool
  | .d optarg | .n optarg | .p optarg => 0 ≤ strToInt optarg
  | .threads | .b | .G => true
  | .h | .v | .unknown => false

/-- The settings that options ask for. -/
def settled (opts : List Opt) (g : Globals) : Globals :=
  { g with
    delayTime := lastValue Opt.delayArg opts g.delayTime
    threadMode := g.threadMode || opts.any Opt.isThreads
    displayLoop := lastValue Opt.countArg opts g.displayLoop
    scrMode := if opts.any Opt.isText then .text else g.scrMode
    monitorId := lastValue Opt.monitorArg opts g.monitorId
    resctrlParamEnable := g.resctrlParamEnable || opts.any Opt.isMetered }

theorem lastValue_cons (arg : Opt → Option Text) (opt : Opt) (opts : List Opt) (z : ℤ) :
    lastValue arg (opt :: opts) z = lastValue arg opts (lastValue arg [opt] z) := by
  simp only [lastValue]
  cases hopt : arg opt with
  | none => simp [hopt]
  | some optarg =>
      rw [List.filterMap_cons_some hopt, List.filterMap_cons_some hopt, List.getLast?_cons]
      cases (opts.filterMap arg).getLast? <;> rfl

/-- The settings of one option, and then those of the others. -/
theorem settled_cons (opt : Opt) (opts : List Opt) (g : Globals) :
    settled (opt :: opts) g = settled opts (settled [opt] g) := by
  have hmode : (if (opt :: opts).any Opt.isText then ScrMode.text else g.scrMode) =
      if opts.any Opt.isText then .text else if [opt].any Opt.isText then .text
        else g.scrMode := by
    rw [List.any_cons, List.any_cons, List.any_nil, Bool.or_false]
    cases opt.isText <;> cases opts.any Opt.isText <;> rfl
  simp only [settled, hmode, lastValue_cons _ opt opts]
  simp only [List.any_cons, List.any_nil, Bool.or_false, Bool.or_assoc]

/-- An option that is accepted is settled. -/
theorem parseArgs_accepted {opt : Opt} (h : opt.accepted = true) (opts : List Opt)
    (g : Globals) : parseArgs (opt :: opts) g = parseArgs opts (settled [opt] g) := by
  cases opt with
  | h | v | unknown => cases h
  | threads | b | G =>
      simp [parseArgs, settled, lastValue, Opt.delayArg, Opt.countArg, Opt.monitorArg,
        Opt.isThreads, Opt.isText, Opt.isMetered]
  | d optarg | n optarg | p optarg =>
      have hpos : ¬ strToInt optarg < 0 := Int.not_lt.2 (of_decide_eq_true h)
      simp [parseArgs, settled, lastValue, Opt.delayArg, Opt.countArg, Opt.monitorArg,
        Opt.isThreads, Opt.isText, Opt.isMetered, hpos]

/-- Any other ends vmtop. -/
theorem parseArgs_rejected {opt : Opt} (h : opt.accepted = false) (opts : List Opt)
    (g : Globals) : ∃ status, parseArgs (opt :: opts) g = .error status := by
  cases opt with
  | h | v | unknown => exact ⟨_, rfl⟩
  | threads | b | G => cases h
  | d optarg | n optarg | p optarg =>
      have hneg : strToInt optarg < 0 := Int.not_le.1 (of_decide_eq_false h)
      refine ⟨1, ?_⟩
      rw [parseArgs]
      exact if_pos hneg

/-- **The loop of `parse_args` leaves the settings of the last options.** -/
theorem parseArgs_ok_iff : parseArgs opts g = .ok g' ↔
    (∀ opt ∈ opts, opt.accepted = true) ∧ g' = settled opts g := by
  induction opts generalizing g with
  | nil =>
      have hnil : settled [] g = g := by
        simp [settled, lastValue]
      rw [hnil, parseArgs, Except.ok.injEq, eq_comm]
      simp
  | cons opt opts ih =>
      rw [List.forall_mem_cons, settled_cons]
      cases haccepted : opt.accepted with
      | true => simp [parseArgs_accepted haccepted, ih]
      | false =>
          obtain ⟨status, hstatus⟩ := parseArgs_rejected haccepted opts g
          simp [hstatus]

/-- **vmtop starts exactly with a command line that spells options it accepts, and with the
settings of the last of each.** -/
theorem commandLine_ok_iff (argv : List Text) (g g' : Globals) :
    commandLine argv g = .ok g' ↔ ∃ opts, Spelled argv opts ∧
      (∀ opt ∈ opts, opt.accepted = true) ∧ g' = settled opts g := by
  rw [commandLine, parseArgs_ok_iff]
  constructor
  · rintro ⟨haccepted, hsettled⟩
    refine ⟨_, getopt_eq_iff.2 ⟨rfl, fun hmem => ?_⟩, haccepted, hsettled⟩
    exact absurd (haccepted _ hmem) (by decide)
  · rintro ⟨opts, hspelled, hsettled⟩
    rw [getopt_spelled hspelled]
    exact hsettled

/-- Flags in one word with a number, and a number in the next word. -/
example : getopt none ["-bHn".toList, "5".toList, "disk".toList, "-d2".toList] =
    [.b, .threads, .n "5".toList, .d "2".toList] := rfl

end Vmtop
