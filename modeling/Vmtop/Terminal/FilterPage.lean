/-
# What the field filter shows

`print_field` lists the fields below the help text, from top to bottom and in as many columns as
the screen needs rows, 20 places apart.  The filter clears the screen once and then draws over
what it has drawn before, so a mark or a highlight that is gone has to be overwritten.  It always
is: whatever keys were pressed, the page shows the marks of the fields that are displayed now, in
reverse the one field that a space would turn over, and nothing else (`filter_shows`).
-/

import Vmtop.Terminal.Display

namespace Vmtop
namespace Display

open CText CArray Runs Windows

variable {rows cols : ℕ} {w : Window rows cols} {s : w.State} {fields : List Fid}
  {highLight : ℕ}

/-! ### The page -/

/-- The field that the list shows around a place. -/
def entryAt (rows y x : ℕ) : ℕ := (x - 1) / 20 * (rows - 4) + (y - 4)

/-- What a field shows in the 20 places from its mark on: the mark, and behind a blank its name. -/
def entryGlyph (f : Fid) (chosen : Bool) (k : ℕ) : Option Glyph :=
  if k = 0 then some ⟨if f.displayFlag then '*' else ' ', false⟩
  else if 2 ≤ k ∧ k < 2 + f.name.length then some ⟨f.name.getD (k - 2) ' ', chosen⟩
  else none

/-- What the list shows in a place; `none` where it has nothing. -/
def listGlyph (rows highLight : ℕ) (fields : List Fid) (y x : ℕ) : Option Glyph :=
  if 4 ≤ y ∧ y < rows ∧ 1 ≤ x then
    (fields[entryAt rows y x]?).bind fun f =>
      entryGlyph f (decide (entryAt rows y x = highLight)) ((x - 1) % 20)
  else none

/-- What the page shows in a place. -/
def pageGlyph (rows highLight : ℕ) (fields : List Fid) (y x : ℕ) : Glyph :=
  if y < 4 then ⟨((lines filterHelp).getD y []).getD x ' ', false⟩
  else (listGlyph rows highLight fields y x).getD blank

/-- The page fits the screen: the help text does, and the end of every name. -/
structure PageFits (rows cols : ℕ) (names : List Text) : Prop where
  tall : 4 < rows
  wide : 76 < cols
  printable : ∀ name ∈ names, ∀ c ∈ name, Printable c
  length : ∀ name ∈ names, name.length ≤ 18
  inside : ∀ i name, names[i]? = some name → 20 * (i / (rows - 4)) + 3 + name.length < cols

/-! ### One field -/

/-- The place of a field and the places around it. -/
theorem entry_place {h i k y x : ℕ} (hrows : 4 < rows) (hh : h = rows - 4) (hk : k < 20) :
    y = 4 + i % h ∧ x = 20 * (i / h) + 1 + k ↔
      (4 ≤ y ∧ y < rows ∧ 1 ≤ x) ∧ entryAt rows y x = i ∧ (x - 1) % 20 = k := by
  have hpos : 0 < h := by omega
  have hmod := Nat.mod_lt i hpos
  rw [entryAt, ← hh]
  constructor
  · rintro ⟨rfl, rfl⟩
    have hdiv : (20 * (i / h) + 1 + k - 1) / 20 = i / h := by omega
    have hsub : 4 + i % h - 4 = i % h := by omega
    refine ⟨by omega, ?_, by omega⟩
    rw [hdiv, hsub, Nat.mul_comm]
    exact Nat.div_add_mod i h
  · rintro ⟨⟨hy, hlt, hx⟩, rfl, rfl⟩
    have hlow : y - 4 < h := by omega
    have hdiv : ((x - 1) / 20 * h + (y - 4)) / h = (x - 1) / 20 := by
      rw [Nat.add_comm, Nat.add_mul_div_right _ _ hpos, Nat.div_eq_of_lt hlow, Nat.zero_add]
    rw [Nat.mul_add_mod_of_lt hlow, hdiv]
    omega

/-- Drawing a field: its mark, two places in front of its name, and its name, in reverse where it
is chosen. -/
def drawEntry (w : Window rows cols) (y x : ℕ) (f : Fid) (chosen : Prop) [Decidable chosen]
    (s : w.State) : w.State :=
  let s := w.mvaddstr y (x - 2) (if f.displayFlag then ['*'] else [' ']) s
  let s := if chosen then w.attr true s else s
  let s := w.mvaddstr y x f.name s
  if chosen then w.attr false s else s

/-- It changes the places of the field. -/
theorem drawEntry_glyph {h i : ℕ} (hh : h = rows - 4) (htall : 4 < rows) {f : Fid}
    (chosen : Prop) [Decidable chosen] (hname : ∀ c ∈ f.name, Printable c)
    (hlength : f.name.length ≤ 18) (hinside : 20 * (i / h) + 3 + f.name.length < cols)
    (hs : (w.view s).reverse = false) :
    (w.view (drawEntry w (4 + i % h) (20 * (i / h) + 3) f chosen s)).reverse = false ∧
      ∀ y x, (w.view (drawEntry w (4 + i % h) (20 * (i / h) + 3) f chosen s)).glyph y x =
        if (4 ≤ y ∧ y < rows ∧ 1 ≤ x) ∧ entryAt rows y x = i then
          (entryGlyph f (decide chosen) ((x - 1) % 20)).getD ((w.view s).glyph y x)
        else (w.view s).glyph y x := by
  have hpos : 0 < h := by omega
  have hmod := Nat.mod_lt i hpos
  have hrow : 4 + i % h < rows := by omega
  have hmark : 20 * (i / h) + 3 - 2 = 20 * (i / h) + 1 := by omega
  -- the view behind the four calls
  have hview : ∃ cursor, w.view (drawEntry w (4 + i % h) (20 * (i / h) + 3) f chosen s) =
      ⟨fun y x =>
        if y = 4 + i % h ∧ 20 * (i / h) + 3 ≤ x ∧ x < 20 * (i / h) + 3 + f.name.length then
          ⟨f.name.getD (x - (20 * (i / h) + 3)) ' ', decide chosen⟩
        else if y = 4 + i % h ∧ x = 20 * (i / h) + 1 then
          ⟨if f.displayFlag then '*' else ' ', false⟩
        else (w.view s).glyph y x, cursor, false⟩ := by
    have hstar : (if f.displayFlag then ['*'] else [' ']) =
        [if f.displayFlag then '*' else ' '] := by split_ifs <;> rfl
    have hprint : ∀ c ∈ [if f.displayFlag then '*' else ' '], Printable c := by
      rw [List.forall_mem_singleton]
      split_ifs <;> decide
    have hstarred := Window.view_mvaddstr (w := w) (s := s) hprint hrow
      (x := 20 * (i / h) + 1) (by rw [List.length_singleton]; omega)
    rw [← View.put_written, View.written_nil] at hstarred
    rw [drawEntry, hstar, hmark]
    by_cases hchosen : chosen
    · rw [if_pos hchosen, if_pos hchosen, w.view_attr, Window.view_mvaddstr hname hrow hinside,
        w.view_attr, hstarred]
      refine ⟨(4 + i % h, 20 * (i / h) + 3 + f.name.length), ?_⟩
      simp only [View.written, View.put, View.move, hs, hchosen, decide_true]
    · rw [if_neg hchosen, if_neg hchosen, Window.view_mvaddstr hname hrow hinside, hstarred]
      refine ⟨(4 + i % h, 20 * (i / h) + 3 + f.name.length), ?_⟩
      simp only [View.written, View.put, View.move, hs, hchosen, decide_false]
  obtain ⟨cursor, hview⟩ := hview
  rw [hview]
  refine ⟨rfl, fun y x => ?_⟩
  dsimp only
  by_cases hin : (4 ≤ y ∧ y < rows ∧ 1 ≤ x) ∧ entryAt rows y x = i
  · have hk : (x - 1) % 20 < 20 := Nat.mod_lt _ (by decide)
    obtain ⟨hy, hx⟩ := (entry_place htall hh hk).2 ⟨hin.1, hin.2, rfl⟩
    rw [if_pos hin]
    generalize (x - 1) % 20 = k at hk hx ⊢
    by_cases hzero : k = 0
    · rw [entryGlyph, if_pos hzero, Option.getD_some, if_neg (by omega), if_pos (by omega)]
    · by_cases hwithin : 2 ≤ k ∧ k < 2 + f.name.length
      · have hshift : x - (20 * (i / h) + 3) = k - 2 := by omega
        rw [entryGlyph, if_neg hzero, if_pos hwithin, Option.getD_some, if_pos (by omega), hshift]
      · rw [entryGlyph, if_neg hzero, if_neg hwithin, if_neg (by omega), if_neg (by omega)]
        rfl
  · have hplace {k : ℕ} (hk : k < 20) : ¬ (y = 4 + i % h ∧ x = 20 * (i / h) + 1 + k) := by
      intro hat
      obtain ⟨hinside, hentry, -⟩ := (entry_place htall hh hk).1 hat
      exact hin ⟨hinside, hentry⟩
    rw [if_neg hin, if_neg, if_neg fun hat => hplace (by decide : 0 < 20) hat]
    rintro ⟨hy, hle, hlt⟩
    exact hplace (k := x - (20 * (i / h) + 1)) (by omega) ⟨hy, by omega⟩

/-! ### The list -/

/-- The place that comes after a field, moved to the next column where it is below the screen. -/
theorem next_place {h i : ℕ} (hh : h = rows - 4) (htall : 4 < rows) :
    (if (rows : ℤ) ≤ (4 + i % h + 1 : ℕ) then (4, 20 * (i / h) + 3 + 20)
      else (4 + i % h + 1, 20 * (i / h) + 3)) =
        (4 + (i + 1) % h, 20 * ((i + 1) / h) + 3) := by
  have hpos : 0 < h := by omega
  have hmod := Nat.mod_lt i hpos
  have hdivMod := Nat.mod_add_div i h
  by_cases hlast : i % h + 1 = h
  · have hnext : (i + 1) / h = i / h + 1 ∧ (i + 1) % h = 0 := by
      rw [Nat.div_mod_unique hpos, Nat.mul_add, Nat.mul_one]
      omega
    rw [if_pos (by omega), hnext.1, hnext.2]
    rw [Nat.add_zero, Nat.mul_add, Nat.mul_one, Nat.add_right_comm]
  · have hnext : (i + 1) / h = i / h ∧ (i + 1) % h = i % h + 1 := by
      rw [Nat.div_mod_unique hpos]
      omega
    rw [if_neg (by omega), hnext.1, hnext.2, Nat.add_assoc]

/-- **The loop of `print_field`** changes the places of the fields from the `i`-th on. -/
theorem printFields_glyph (highLight : ℕ) {h i y x : ℕ} (hh : h = rows - 4) (htall : 4 < rows)
    (hplace : (if (rows : ℤ) ≤ y then (4, x + 20) else (y, x)) = (4 + i % h, 20 * (i / h) + 3))
    (hfields : ∀ k f, fields[k]? = some f → (∀ c ∈ f.name, Printable c) ∧ f.name.length ≤ 18 ∧
      20 * ((i + k) / h) + 3 + f.name.length < cols) (hs : (w.view s).reverse = false) :
    (w.view (printFields w rows 4 highLight fields i y x s)).reverse = false ∧
      ∀ y' x', (w.view (printFields w rows 4 highLight fields i y x s)).glyph y' x' =
        if (4 ≤ y' ∧ y' < rows ∧ 1 ≤ x') ∧ i ≤ entryAt rows y' x' then
          ((fields[entryAt rows y' x' - i]?).bind fun f => entryGlyph f
            (decide (entryAt rows y' x' = highLight)) ((x' - 1) % 20)).getD
              ((w.view s).glyph y' x')
        else (w.view s).glyph y' x' := by
  induction fields generalizing i y x s with
  | nil => exact ⟨hs, fun y' x' => by simp [printFields]⟩
  | cons f rest ih =>
      obtain ⟨hname, hlength, hend⟩ := hfields 0 f rfl
      have hinside : 20 * (i / h) + 3 + f.name.length < cols := hend
      have hrest : ∀ k f, rest[k]? = some f → (∀ c ∈ f.name, Printable c) ∧
          f.name.length ≤ 18 ∧ 20 * ((i + 1 + k) / h) + 3 + f.name.length < cols := by
        intro k f hf
        have hnext := hfields (k + 1) f hf
        rwa [Nat.add_comm k 1, ← Nat.add_assoc] at hnext
      obtain ⟨hreverse, hglyph⟩ := drawEntry_glyph hh htall (i = highLight) hname hlength hinside hs
      have hbody : printFields w rows 4 highLight (f :: rest) i y x s =
          printFields w rows 4 highLight rest (i + 1) (4 + i % h + 1) (20 * (i / h) + 3)
            (drawEntry w (4 + i % h) (20 * (i / h) + 3) f (i = highLight) s) := by
        rw [printFields, hplace]
        rfl
      obtain ⟨hreverse', hglyph'⟩ := ih (next_place hh htall) hrest hreverse
      rw [hbody]
      refine ⟨hreverse', fun y' x' => ?_⟩
      rw [hglyph', hglyph]
      by_cases hin : 4 ≤ y' ∧ y' < rows ∧ 1 ≤ x'
      · simp only [hin, true_and]
        generalize entryAt rows y' x' = j
        rcases Nat.lt_trichotomy j i with hlt | rfl | hgt
        · rw [if_neg (by omega), if_neg (by omega), if_neg (by omega)]
        · rw [if_neg (by omega), if_pos rfl, if_pos le_rfl, Nat.sub_self]
          rfl
        · have hsub : j - i = j - (i + 1) + 1 := by omega
          rw [if_pos (by omega), if_neg (by omega), if_pos (by omega), hsub,
            List.getElem?_cons_succ]
      · simp only [hin, false_and, if_false]

/-! ### The whole page -/

/-- The help text and a blank line have four lines, which are short and printable. -/
theorem filterHelp_lines : (filterHelp ++ ['\n']).count '\n' = 4 ∧
    (lines (filterHelp ++ ['\n'])).all (fun l => l.length ≤ 76) = true ∧
    filterHelp.all (fun c => c = '\n' ∨ Printable c) = true ∧
    (List.range 4).all (fun y =>
      (lines (filterHelp ++ ['\n'])).getD y [] = (lines filterHelp).getD y []) = true := by
  decide +kernel

/-- The help text and the blank line below it are drawn over what stood there. -/
theorem drawHelp {s : w.State} (htall : 4 < rows) (hwide : 76 < cols)
    (hs : (w.view s).reverse = false) :
    let v := w.view (w.addstr ['\n'] (w.mvaddstr 0 0 filterHelp s))
    v.reverse = false ∧ v.cursor = (4, 0) ∧ ∀ y x, v.glyph y x =
      if y < 4 then ⟨((lines filterHelp).getD y []).getD x ' ', false⟩
      else (w.view s).glyph y x := by
  obtain ⟨hcount, hlines, hprint, hsame⟩ := filterHelp_lines
  simp only [List.all_eq_true, decide_eq_true_eq] at hlines hprint hsame
  have hspells := (Page.Spells.empty.writeText false filterHelp).writeText false ['\n']
  rw [List.nil_append] at hspells
  have hfits : ((Page.empty.writeText false filterHelp).writeText false ['\n']).Fits rows cols :=
    hspells.fits (.inl (by rw [hcount]; exact htall))
      fun l hl => Nat.lt_of_le_of_lt (hlines l hl) hwide
  have hplain := Page.plain_writeText (Page.plain_writeText (p := Page.empty)
    (by simp [Page.Plain, Page.empty]) filterHelp) ['\n']
  have hlength := hspells.length_done.trans hcount
  have hlast := hspells.last_eq_nil
  -- what is drawn
  obtain ⟨hok, hmove⟩ := w.move_inside (Nat.zero_lt_of_lt htall) (Nat.zero_lt_of_lt hwide) s
  have hstart : Drawn rows (w.view s).glyph (w.view (w.move 0 0 s).1) Page.empty := by
    rw [hmove]
    exact Drawn.start (v := (w.view s).move 0 0) (Nat.zero_lt_of_lt htall) rfl
  obtain ⟨hhelp, hreverse⟩ := hstart.addstr (by rw [hmove]; exact hs) (.of_writeText _ hfits)
    hprint
  obtain ⟨hdrawn, hreverse'⟩ := hhelp.addstr hreverse hfits (by simp)
  have hmvaddstr : w.mvaddstr 0 0 filterHelp s = w.addstr filterHelp (w.move 0 0 s).1 := by
    rw [Window.mvaddstr]
    exact if_pos hok
  dsimp only
  rw [hmvaddstr]
  generalize (Page.empty.writeText false filterHelp).writeText false ['\n'] = page at *
  refine ⟨hreverse', ?_, fun y x => ?_⟩
  · rw [hdrawn.cursor (by omega), hlength, hlast]
    rfl
  · split_ifs with hy
    · have hdone : y < page.done.length := by omega
      have hpage : page.glyph y x = page.done[y].getD x blank := by
        rw [Page.glyph, List.getD_append _ _ _ _ hdone, List.getD_eq_getElem page.done _ hdone]
      have hchar := hspells.char_glyph y x
      have hreversed : (page.glyph y x).reverse = false := hplain.reverse_getD y x
      rw [hsame y (List.mem_range.2 hy)] at hchar
      rw [hdrawn.done y hdone, ← hpage, ← hchar, ← hreversed]
    · exact hdrawn.under y x (by rw [hlast, List.length_nil]; omega)

/-- **Drawing the page** over what stood on the screen. -/
theorem draw_glyph {f : Filter w} (hfits : PageFits rows cols (f.fields.map Fid.name))
    (hs : (w.view f.screen).reverse = false) :
    (w.view (f.draw w rows)).reverse = false ∧ ∀ y x, (w.view (f.draw w rows)).glyph y x =
      if y < 4 then ⟨((lines filterHelp).getD y []).getD x ' ', false⟩
      else (listGlyph rows f.highLight f.fields y x).getD ((w.view f.screen).glyph y x) := by
  obtain ⟨hreverse, hcursor, hhelp⟩ := drawHelp hfits.tall hfits.wide hs
  have hplace : (if (rows : ℤ) ≤ (4 : ℕ) then (4, 0 + 3 + 20) else (4, 0 + 3)) =
      (4 + 0 % (rows - 4), 20 * (0 / (rows - 4)) + 3) := by
    have htall := hfits.tall
    rw [if_neg (by omega), Nat.zero_mod, Nat.zero_div]
  have hfields : ∀ k g, f.fields[k]? = some g → (∀ c ∈ g.name, Printable c) ∧
      g.name.length ≤ 18 ∧ 20 * ((0 + k) / (rows - 4)) + 3 + g.name.length < cols := by
    intro k g hg
    have hname : (f.fields.map Fid.name)[k]? = some g.name := by
      rw [List.getElem?_map, hg, Option.map_some]
    have hmem := List.mem_of_getElem? hname
    rw [Nat.zero_add]
    exact ⟨hfits.printable _ hmem, hfits.length _ hmem, hfits.inside k _ hname⟩
  obtain ⟨hreverse', hglyph⟩ := printFields_glyph f.highLight rfl hfits.tall hplace hfields
    hreverse
  have hdraw : f.draw w rows = printFields w rows 4 f.highLight f.fields 0 4 (0 + 3)
      (w.addstr ['\n'] (w.mvaddstr 0 0 filterHelp f.screen)) := by
    rw [Filter.draw, printField, hcursor]
  rw [hdraw]
  refine ⟨hreverse', fun y x => ?_⟩
  rw [hglyph, hhelp, Nat.sub_zero]
  simp only [Nat.zero_le, and_true]
  unfold listGlyph
  by_cases hy : y < 4
  · rw [if_neg (by omega), if_pos hy, if_pos hy]
  · rw [if_neg hy, if_neg hy]
    split_ifs <;> rfl

/-! ### Runs of the filter -/

/-- A place of the list where no field has its mark or its name. -/
def Bare (rows : ℕ) (names : List Text) (y x : ℕ) : Prop :=
  4 ≤ y ∧ y < rows ∧ 1 ≤ x → ∀ name, names[entryAt rows y x]? = some name →
    (x - 1) % 20 ≠ 0 ∧ ¬ (2 ≤ (x - 1) % 20 ∧ (x - 1) % 20 < 2 + name.length)

/-- The list shows something wherever it is not bare. -/
theorem listGlyph_eq_none {y x : ℕ} :
    listGlyph rows highLight fields y x = none ↔ Bare rows (fields.map Fid.name) y x := by
  unfold listGlyph Bare
  rw [List.getElem?_map]
  split_ifs with hin
  · cases fields[entryAt rows y x]? with
    | none => simp
    | some f =>
        have hname : (∀ name, some f.name = some name → (x - 1) % 20 ≠ 0 ∧
            ¬ (2 ≤ (x - 1) % 20 ∧ (x - 1) % 20 < 2 + name.length)) ↔
            (x - 1) % 20 ≠ 0 ∧ ¬ (2 ≤ (x - 1) % 20 ∧ (x - 1) % 20 < 2 + f.name.length) :=
          ⟨fun h => h _ rfl, fun h name hname => Option.some.inj hname ▸ h⟩
        rw [Option.bind_some, Option.map_some, imp_iff_right hin, hname]
        unfold entryGlyph
        split_ifs with hzero hwithin
        · exact iff_of_false (fun h => nomatch h) fun h => h.1 hzero
        · exact iff_of_false (fun h => nomatch h) fun h => h.2 hwithin
        · exact iff_of_true rfl ⟨hzero, hwithin⟩
  · simp [hin]

/-- What holds whenever the filter waits for a key: it highlights a field, its fields have their
names, and below the help text nothing stands where the list is bare. -/
structure Tidy (names : List Text) (f : Filter w) : Prop where
  fields : f.fields.map Fid.name = names
  highLight : f.highLight < names.length
  reverse : (w.view f.screen).reverse = false
  bare : ∀ y x, 4 ≤ y → y < rows → Bare rows names y x → (w.view f.screen).glyph y x = blank

variable {names : List Text}

/-- **The page that is drawn is all that the screen shows.** -/
theorem Tidy.draw_glyph {f : Filter w} (h : Tidy names f) (hfits : PageFits rows cols names) :
    (w.view (f.draw w rows)).reverse = false ∧ ∀ y < rows, ∀ x,
      (w.view (f.draw w rows)).glyph y x = pageGlyph rows f.highLight f.fields y x := by
  obtain ⟨hreverse, hglyph⟩ := Display.draw_glyph (h.fields ▸ hfits) h.reverse
  refine ⟨hreverse, fun y hy x => ?_⟩
  rw [hglyph, pageGlyph]
  split_ifs with htop
  · rfl
  · cases hlist : listGlyph rows f.highLight f.fields y x with
    | some g => rfl
    | none =>
        exact h.bare y x (Nat.not_lt.1 htop) hy (h.fields ▸ listGlyph_eq_none.1 hlist)

/-- What is drawn is tidy again. -/
theorem Tidy.drawn {f : Filter w} (h : Tidy names f) (hfits : PageFits rows cols names) :
    Tidy names { f with screen := f.draw w rows } := by
  obtain ⟨hreverse, hglyph⟩ := h.draw_glyph hfits
  refine ⟨h.fields, h.highLight, hreverse, fun y x hy hlt hbare => ?_⟩
  rw [hglyph y hlt x, pageGlyph, if_neg (Nat.not_lt.2 hy),
    listGlyph_eq_none.2 (h.fields.symm ▸ hbare), Option.getD_none]

/-- **One key.** -/
theorem Tidy.step {f : Filter w} (h : Tidy names f) (hfits : PageFits rows cols names)
    (press : Option KeyPress) :
    (∀ f', f.step w rows press = .ok f' → Tidy names f') ∧
      ∀ f', f.step w rows press = .error f' → Tidy names f' := by
  have hdrawn := h.drawn hfits
  have hlength : f.fields.length = names.length := by rw [← h.fields, List.length_map]
  have hlight := h.highLight
  unfold Filter.step
  dsimp only
  split
  · refine ⟨fun f' hf => ?_, fun f' hf => (nomatch hf)⟩
    cases hf
    refine ⟨hdrawn.fields, ?_, hdrawn.reverse, hdrawn.bare⟩
    dsimp only
    split_ifs <;> omega
  · refine ⟨fun f' hf => ?_, fun f' hf => (nomatch hf)⟩
    cases hf
    refine ⟨hdrawn.fields, ?_, hdrawn.reverse, hdrawn.bare⟩
    dsimp only
    split_ifs <;> omega
  · refine ⟨fun f' hf => ?_, fun f' hf => (nomatch hf)⟩
    cases hf
    refine ⟨?_, hdrawn.highLight, hdrawn.reverse, hdrawn.bare⟩
    dsimp only
    rw [← h.fields]
    have hcolumns := congrArg (List.map Fid.name) (map_column_modify f.fields f.highLight
      fun f => !f.displayFlag)
    rw [List.map_map, List.map_map] at hcolumns
    exact hcolumns
  · refine ⟨fun f' hf => (nomatch hf), fun f' hf => ?_⟩
    cases hf
    exact hdrawn
  · refine ⟨fun f' hf => ?_, fun f' hf => (nomatch hf)⟩
    cases hf
    exact hdrawn

/-- The screen is cleared before the first page. -/
theorem Tidy.start (hnames : 0 < names.length) (hfields : fields.map Fid.name = names)
    (hs : (w.view s).reverse = false) : Tidy names (Filter.start w fields s) where
  fields := hfields
  highLight := hnames
  reverse := (w.clear_reverse s).trans hs
  bare := fun y x _ _ _ => w.clear_glyph s y x

/-- The filter ends as it does without a screen. -/
theorem runAll_filter (scrRowSize delayTime : ℤ) (presses : List (Option KeyPress))
    (f : Filter w) :
    (showFilter delayTime presses f.highLight f.fields).map Prod.fst =
      match runAll (Filter.step w scrRowSize) presses f with
      | .ok _ => none
      | .error f' => some f'.fields := by
  induction presses generalizing f with
  | nil => rfl
  | cons press rest ih =>
      have hmore (fields : List Fid) (highLight : ℕ) :
          ((showFilter delayTime rest highLight fields).map fun r =>
            (r.1, waited delayTime press + r.2)).map Prod.fst =
          (showFilter delayTime rest highLight fields).map Prod.fst := Option.map_map _ _ _
      rw [runAll, showFilter]
      dsimp only
      split
      · rename_i hkey
        simp only [Filter.step, hkey]
        exact (hmore _ _).trans (ih ⟨_, _, f.draw w scrRowSize⟩)
      · rename_i hkey
        simp only [Filter.step, hkey]
        exact (hmore _ _).trans (ih ⟨_, _, f.draw w scrRowSize⟩)
      · rename_i hkey
        simp only [Filter.step, hkey]
        exact (hmore _ _).trans (ih ⟨_, _, f.draw w scrRowSize⟩)
      · rename_i hkey
        simp only [Filter.step, hkey]
        rfl
      · rename_i hup hdown hspace hquit
        have hstep : f.step w scrRowSize press =
            .ok { f with screen := f.draw w scrRowSize } := by
          rw [Filter.step]
          dsimp only
          split
          · exact absurd ‹_› hup
          · exact absurd ‹_› hdown
          · exact absurd ‹_› hspace
          · exact absurd ‹_› hquit
          · rfl
        rw [hstep]
        exact (hmore _ _).trans (ih ⟨_, _, f.draw w scrRowSize⟩)

/-! ### The filter of a run -/

/-- The titles of the columns are short and printable. -/
theorem fields_names (arch : Arch) : ∀ name ∈ (Vmtop.fields arch).map Fid.name,
    (∀ c ∈ name, Printable c) ∧ name.length ≤ 12 := by
  have hall : ((Vmtop.fields arch).map Fid.name).all (fun name =>
      name.all (fun c => Printable c) && decide (name.length ≤ 12)) = true := by
    cases arch <;> decide +kernel
  simpa [List.all_eq_true] using hall

/-- **Whatever keys were pressed, the field filter shows its page and nothing else**, where the
screen is large enough for it, and what it leaves is what `parse_keys` goes on with. -/
theorem filter_shows (r : ScreenRun) {j : ℕ} (hj : j < r.len) {t : Turn}
    (ht : turn (r.input j) (r.state j) = .ok t) (w : Window rows cols) (htall : 4 < rows)
    (hwide : 76 < cols)
    (hlist : 20 * ((t.frame.fields.length - 1) / (rows - 4)) + 15 < cols) (s : w.State)
    (hs : (w.view s).reverse = false) (presses : List (Option KeyPress)) :
    (∀ f, runAll (Filter.step w rows) presses (.start w t.frame.fields s) = .ok f →
      f.highLight < f.fields.length ∧ ∀ y < rows, ∀ x < cols,
        (w.view (f.draw w rows)).glyph y x = pageGlyph rows f.highLight f.fields y x) ∧
    ∀ f, runAll (Filter.step w rows) presses (.start w t.frame.fields s) = .error f →
      (showFilter t.frame.delayTime presses 0 t.frame.fields).map Prod.fst = some f.fields ∧
        (w.view f.screen).reverse = false := by
  -- the titles are those of the table
  obtain ⟨arch, hcolumns⟩ := r.columns hj ht
  have hnames : t.frame.fields.map Fid.name = (Vmtop.fields arch).map Fid.name := by
    have hmap := congrArg (List.map Fid.name) hcolumns
    rw [List.map_map, List.map_map] at hmap
    exact hmap
  have htitles := fields_names arch
  rw [← hnames] at htitles
  have hfits : PageFits rows cols (t.frame.fields.map Fid.name) := by
    refine ⟨htall, hwide, fun name hname => (htitles name hname).1,
      fun name hname => (htitles name hname).2.trans (by decide), fun i name hname => ?_⟩
    have hi := (List.getElem?_eq_some_iff.1 hname).1
    rw [List.length_map] at hi
    have hcolumn : i / (rows - 4) ≤ (t.frame.fields.length - 1) / (rows - 4) :=
      Nat.div_le_div_right (by omega)
    have hlength := (htitles name (List.mem_of_getElem? hname)).2
    omega
  have hpos : 0 < (t.frame.fields.map Fid.name).length := by
    rw [hnames]
    cases arch <;> decide
  obtain ⟨hopen, hquit⟩ := runAll_invariant (f := Filter.step w rows) (P := Tidy _) (Q := Tidy _)
    (fun press f f' hf hstep => (hf.step hfits press).1 f' hstep)
    (fun press f f' hf hstep => (hf.step hfits press).2 f' hstep) presses
    (Tidy.start hpos rfl hs)
  refine ⟨fun f hf => ?_, fun f hf => ⟨?_, (hquit f hf).reverse⟩⟩
  · have htidy := hopen f hf
    have hlength := congrArg List.length htidy.fields
    rw [List.length_map] at hlength
    exact ⟨hlength ▸ htidy.highLight, fun y hy x _ => (htidy.draw_glyph hfits).2 y hy x⟩
  · have hsame := runAll_filter rows t.frame.delayTime presses (.start w t.frame.fields s)
    rw [hf] at hsame
    exact hsame

/-- Of the first column the second to fourth field and the tenth are marked once the first one was
hidden, and the second one is chosen, over a screen that was full of marks. -/
theorem filter_shows_metered : ∃ (r : ScreenRun) (t : Turn) (f : Filter (.grid 24 80)),
    turn (r.input 0) (r.state 0) = .ok t ∧
      runAll (Filter.step (.grid 24 80) (24 : ℕ))
        [some (earlyKey (.char ' ')), none, some (earlyKey .down)]
        (.start (.grid 24 80) t.frame.fields marked) = .ok f ∧
      (List.range 24).map (fun y => (View.glyph (f.draw (.grid 24 80) (24 : ℕ)) y 1).char) =
        "isq  ***     *          ".toList ∧
      View.glyph (f.draw (.grid 24 80) (24 : ℕ)) 5 3 = ⟨'V', true⟩ := by
  have hmetered : (turn (meteredTurn 24) ⟨meteredGlobals, false⟩).toOption.bind (fun t =>
      (runAll (Filter.step (.grid 24 80) (24 : ℕ))
        [some (earlyKey (.char ' ')), none, some (earlyKey .down)]
        (.start (.grid 24 80) t.frame.fields marked)).toOption.map fun f =>
          (t.frame.fields.length,
            (List.range 24).map fun y => (pageGlyph 24 f.highLight f.fields y 1).char,
            pageGlyph 24 f.highLight f.fields 5 3)) =
      some (49, "isq  ***     *          ".toList, ⟨'V', true⟩) := by decide +kernel
  obtain ⟨t, hturn, hmetered⟩ := Option.bind_eq_some_iff.1 hmetered
  obtain ⟨f, hf, hpage⟩ := Option.map_eq_some_iff.1 hmetered
  rw [toOption_eq_some] at hturn hf
  simp only [Prod.mk.injEq] at hpage
  obtain ⟨hlength, hmarks, hchosen⟩ := hpage
  have hrun : runAll mainStep [meteredTurn 24] ⟨meteredGlobals, false⟩ = .ok t.next := by
    simp only [runAll, mainStep, hturn]
    rfl
  obtain ⟨r, hlen, hstart, hinput, -⟩ := exists_screenRun [meteredTurn 24]
    ⟨rfl, rfl, .other, fun _ => Task.zero, [.G], rfl⟩ (by rw [hrun]; rfl)
  have hinput₀ : r.input 0 = meteredTurn 24 := hinput 0
  rw [← hinput₀, ← hstart] at hturn
  obtain ⟨hopen, -⟩ := filter_shows r (hlen ▸ Nat.zero_lt_one) hturn (.grid 24 80) (by decide)
    (by decide) (by rw [hlength]; decide) marked rfl
    [some (earlyKey (.char ' ')), none, some (earlyKey .down)]
  have hglyph : ∀ y < 24, ∀ x < 80, View.glyph (f.draw (.grid 24 80) (24 : ℕ)) y x =
      pageGlyph 24 f.highLight f.fields y x := (hopen f hf).2
  refine ⟨r, t, f, hturn, hf, ?_, ?_⟩
  · rw [← hmarks]
    refine List.map_congr_left fun y hy => ?_
    rw [hglyph y (List.mem_range.1 hy) 1 (by decide)]
  · rw [hglyph 5 (by decide) 3 (by decide)]
    exact hchosen

end Display
end Vmtop
