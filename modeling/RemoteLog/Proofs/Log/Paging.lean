import RemoteLog.Proofs.Log.Window

/-! # Paging through a file

A client that pages through a file asks for windows of the same size, each from where the last one
ended, until a window reaches the end. If all bytes of the file can be read, the windows are its
lines cut into pages, and their texts put together are the text of the whole file.

* **`Log.Paging guard fs path limit skip windows`** — the windows of a client that pages from a
  line on.
* **`Log.pages limit lines`** — lines cut into pages; **`Log.pageWindows total skip pages`** — the
  windows that hold them.
* **`Log.withLineBreaks_eq`**, **`Log.joinLines_pages`** — texts put together from pages.
* **`Log.paging_tiles`** — paging through a file. -/

namespace RemoteLog.Log

open Message

/-! ## Paging -/

/-- **The windows of a client that pages through a file** from a line on: each goes on behind the
last one, and the last window is the first that reaches the end of the file. -/
inductive Paging (guard : PathGuard) (fs : FileSystem) (path : String) (limit : UInt32) :
    (skip : UInt32) → (windows : List RollViewLogResponse) → Prop
  | last {skip : UInt32} {view : RollViewLogResponse}
      (hview : window guard fs ⟨path, skip, limit⟩ = view) (hend : view.total ≤ view.current) :
      Paging guard fs path limit skip [view]
  | next {skip skip' : UInt32} {view : RollViewLogResponse} {windows : List RollViewLogResponse}
      (hview : window guard fs ⟨path, skip, limit⟩ = view) (hmore : view.current < view.total)
      (hskip : skip'.toNat = view.current.toNat)
      (hrest : Paging guard fs path limit skip' windows) :
      Paging guard fs path limit skip (view :: windows)

/-- **A client can page in one way only.** -/
theorem Paging.unique {guard : PathGuard} {fs : FileSystem} {path : String} {limit skip : UInt32}
    {windows windows' : List RollViewLogResponse} (h : Paging guard fs path limit skip windows)
    (h' : Paging guard fs path limit skip windows') : windows' = windows := by
  induction h generalizing windows' with
  | last hview hend =>
    subst hview
    cases h' with
    | last hview' => rw [hview']
    | next hview' hmore =>
      subst hview'
      exact absurd hmore (UInt64.not_lt.mpr hend)
  | next hview hmore hskip _ ih =>
    subst hview
    cases h' with
    | last hview' hend =>
      subst hview'
      exact absurd hmore (UInt64.not_lt.mpr hend)
    | next hview' _ hskip' hrest' =>
      subst hview'
      obtain rfl := UInt32.toNat_inj.mp (hskip'.trans hskip.symm)
      rw [ih hrest']

/-! ## Pages -/

/-- **Lines cut into pages:** all pages but the last one are full. No lines are one empty page. -/
def pages (limit : Nat) (lines : List String) : List (List String) :=
  if limit = 0 ∨ lines.length ≤ limit then [lines]
  else lines.take limit :: pages limit (lines.drop limit)
termination_by lines.length

/-- **The windows that hold pages,** the first one behind `skip` lines of a file. -/
def pageWindows (total : Nat) : (skip : Nat) → List (List String) → List RollViewLogResponse
  | _, [] => []
  | skip, page :: rest =>
    .ok (UInt64.ofNat (skip + page.length)) (UInt64.ofNat total) (joinLines page) ::
      pageWindows total (skip + page.length) rest

variable {limit : Nat}

/-- **Each line is on one page,** and the pages have them in order. -/
theorem flatten_pages (limit : Nat) (lines : List String) :
    (pages limit lines).flatten = lines := by
  fun_induction pages limit lines with
  | case1 lines _ => exact List.flatten_singleton
  | case2 lines _ ih => rw [List.flatten_cons, ih, List.take_append_drop]

/-- **The number of pages:** at least one, and else as many as are needed. -/
theorem length_pages (hlimit : 0 < limit) (lines : List String) :
    (pages limit lines).length = max 1 ((lines.length + limit - 1) / limit) := by
  fun_induction pages limit lines with
  | case1 lines hlast =>
    -- At most one page is needed.
    have hle : lines.length ≤ limit := hlast.resolve_left (Nat.ne_of_gt hlimit)
    have hdiv : (lines.length + limit - 1) / limit < 2 := by
      rw [Nat.div_lt_iff_lt_mul hlimit]
      omega
    rw [List.length_singleton, Nat.max_eq_left (Nat.le_of_lt_succ hdiv)]
  | case2 lines hmore ih =>
    have hlt : limit < lines.length := Nat.lt_of_not_le (not_or.mp hmore).2
    have hsplit : lines.length + limit - 1 = lines.length - limit + limit - 1 + limit := by omega
    have hpos : 1 ≤ (lines.length - limit + limit - 1) / limit := by
      rw [Nat.le_div_iff_mul_le hlimit]
      omega
    rw [List.length_cons, ih, List.length_drop, hsplit, Nat.add_div_right _ hlimit]
    omega

theorem pages_ne_nil (limit : Nat) (lines : List String) : pages limit lines ≠ [] := by
  unfold pages
  split <;> exact List.cons_ne_nil _ _

/-! ## Texts -/

/-- **A text with line breaks** is the joined lines with one break behind them. -/
theorem withLineBreaks_eq (lines : List String) :
    withLineBreaks lines = joinLines lines ++ if lines = [] then "" else lineBreak := by
  have hfold (out : String) : lines.foldl (fun out line => out ++ line ++ lineBreak) out =
      out ++ (joinLines lines ++ if lines = [] then "" else lineBreak) := by
    induction lines generalizing out with
    | nil => simp [joinLines]
    | cons line rest ih =>
      rw [List.foldl_cons, ih]
      cases rest with
      | nil => simp [joinLines, String.append_assoc]
      | cons next rest => simp [joinLines, String.intercalate_cons_cons, String.append_assoc]
  rw [withLineBreaks, hfold, String.empty_append]

/-- **The joined texts of the pages** are the joined lines. -/
theorem joinLines_pages (hlimit : 0 < limit) (lines : List String) :
    joinLines ((pages limit lines).map joinLines) = joinLines lines := by
  fun_induction pages limit lines with
  | case1 lines _ => rw [List.map_singleton, joinLines, String.intercalate_singleton]
  | case2 lines hmore ih =>
    have hlt : limit < lines.length := Nat.lt_of_not_le (not_or.mp hmore).2
    have htake : lines.take limit ≠ [] :=
      List.ne_nil_of_length_pos (by rw [List.length_take]; omega)
    have hdrop : lines.drop limit ≠ [] :=
      List.ne_nil_of_length_pos (by rw [List.length_drop]; omega)
    have hpages : (pages limit (lines.drop limit)).map joinLines ≠ [] :=
      mt List.map_eq_nil_iff.mp (pages_ne_nil _ _)
    calc joinLines ((lines.take limit :: pages limit (lines.drop limit)).map joinLines)
      _ = joinLines (lines.take limit) ++ lineBreak ++
            joinLines ((pages limit (lines.drop limit)).map joinLines) := by
        rw [List.map_cons, joinLines, String.intercalate_cons_of_ne_nil hpages]
        rfl
      _ = joinLines (lines.take limit) ++ lineBreak ++ joinLines (lines.drop limit) := by rw [ih]
      _ = joinLines (lines.take limit ++ lines.drop limit) :=
        (String.intercalate_append_of_ne_nil htake hdrop).symm
      _ = joinLines lines := by rw [List.take_append_drop]

/-! ## Paging through a file -/

/-- Windows that hold pages were read. -/
theorem status_of_mem_pageWindows {total skip : Nat} {cut : List (List String)}
    {view : RollViewLogResponse} (h : view ∈ pageWindows total skip cut) : view.status = .ok := by
  induction cut generalizing skip with
  | nil => cases h
  | cons page rest ih =>
    cases h with
    | head => rfl
    | tail _ hrest => exact ih hrest

/-- The texts of windows are the joined pages. -/
theorem map_log_pageWindows (total skip : Nat) (cut : List (List String)) :
    (pageWindows total skip cut).map RollViewLogResponse.log = cut.map joinLines := by
  induction cut generalizing skip with
  | nil => rfl
  | cons page rest ih => exact congrArg (joinLines page :: ·) (ih _)

section

variable {guard : PathGuard} {fs : FileSystem} {path : String} {place : List String}
  {bytes : ByteArray} {limit : UInt32}

/-- **Paging from a line on** shows the pages of the lines behind it. -/
theorem paging_pages (haccepts : guard.accepts path = true)
    (hfile : fs.resolve .use path = .ok (.entry place (.file (.ofBytes bytes))))
    (hlines : (Line.texts bytes).length < UInt32.size) (hlimit : 0 < limit.toNat) {skip : UInt32}
    {lines : List String} (hbehind : (Line.texts bytes).drop skip.toNat = lines)
    (htotal : (Line.texts bytes).length = skip.toNat + lines.length) :
    Paging guard fs path limit skip
      (pageWindows (Line.texts bytes).length skip.toNat (pages limit.toNat lines)) := by
  fun_induction pages limit.toNat lines generalizing skip with
  | case1 lines hlast =>
    -- The window holds all lines that are left, so its last line is the last one of the file.
    have hpage : lines.take limit.toNat = lines :=
      List.take_of_length_le (hlast.resolve_left (Nat.ne_of_gt hlimit))
    refine .last (window_eq haccepts hfile (hbehind ▸ hpage)) ?_
    rw [RollViewLogResponse.ok, htotal]
    exact UInt64.le_refl _
  | case2 lines hmore ih =>
    have hfull : (lines.take limit.toNat).length = limit.toNat :=
      List.length_take_of_le (Nat.le_of_lt (Nat.lt_of_not_le (not_or.mp hmore).2))
    have hleft : skip.toNat + limit.toNat < (Line.texts bytes).length := by omega
    have hview := window_eq haccepts hfile (congrArg (List.take limit.toNat) hbehind)
    rw [hfull] at hview
    -- The next window starts behind this one, at a line whose number fits a request.
    have hskip : (UInt32.ofNat (skip.toNat + limit.toNat)).toNat = skip.toNat + limit.toNat :=
      UInt32.toNat_ofNat_of_lt' (Nat.lt_trans hleft hlines)
    have hcurrent : (UInt64.ofNat (skip.toNat + limit.toNat)).toNat = skip.toNat + limit.toNat :=
      UInt64.toNat_ofNat_of_lt' (Nat.lt_trans hleft (Nat.lt_trans hlines (by decide)))
    have hall : (UInt64.ofNat (Line.texts bytes).length).toNat = (Line.texts bytes).length :=
      UInt64.toNat_ofNat_of_lt' (Nat.lt_trans hlines (by decide))
    have hrest := @ih (.ofNat (skip.toNat + limit.toNat))
      (by rw [hskip, ← List.drop_drop, hbehind]) (by rw [hskip, List.length_drop]; omega)
    rw [hskip] at hrest
    rw [pageWindows, hfull]
    refine .next hview ?_ ?_ hrest
    · rw [RollViewLogResponse.ok, UInt64.lt_iff_toNat_lt, hcurrent, hall]
      exact hleft
    · rw [hskip, RollViewLogResponse.ok, hcurrent]

/-- **Paging tiles a file.** A file whose bytes can all be read has fewer than `2 ^ 32` lines, and a
client pages through it from the front in windows of `limit` lines. There is just one way to do so,
and it ends: as many windows are shown as are needed to hold the lines, at least one. All of them
were read, they hold the lines of the file in order and each line once, and their texts with line
breaks between them, and one behind the last line, are the text of the whole file. -/
theorem paging_tiles (haccepts : guard.accepts path = true)
    (hfile : fs.resolve .use path = .ok (.entry place (.file (.ofBytes bytes))))
    (hlines : (Line.texts bytes).length < UInt32.size) (hlimit : 1 ≤ limit) :
    let total := (Line.texts bytes).length
    ∃ cut : List (List String),
      cut.flatten = Line.texts bytes ∧
      cut.length = max 1 ((total + limit.toNat - 1) / limit.toNat) ∧
      (∀ windows, Paging guard fs path limit 0 windows ↔ windows = pageWindows total 0 cut) ∧
      (∀ view ∈ pageWindows total 0 cut, view.status = .ok) ∧
      joinLines ((pageWindows total 0 cut).map RollViewLogResponse.log) ++
          (if 0 < total then lineBreak else "") =
        text fs path := by
  intro total
  have hpos : 0 < limit.toNat := UInt32.le_iff_toNat_le.mp hlimit
  have hpaging : Paging guard fs path limit 0
      (pageWindows total 0 (pages limit.toNat (Line.texts bytes))) :=
    paging_pages haccepts hfile hlines hpos List.drop_zero (Nat.zero_add _).symm
  refine ⟨pages limit.toNat (Line.texts bytes), flatten_pages _ _, length_pages hpos _,
    fun windows => ⟨hpaging.unique, fun heq => heq ▸ hpaging⟩,
    fun view hview => status_of_mem_pageWindows hview, ?_⟩
  rw [map_log_pageWindows, joinLines_pages hpos, text_eq hfile, withLineBreaks_eq]
  simp only [total, List.length_pos_iff, ite_not]

/-- Three lines, one of them blank and the last one without an end, are two pages of two lines. -/
theorem paging_tiles_blank_line :
    let guard : PathGuard := ⟨"/logs"⟩
    let bytes : ByteArray := "1\n\n3".toUTF8
    let log := (["logs", "a.log"], Entry.file (.ofBytes bytes))
    let fs : FileSystem := ⟨[(["logs"], .directory), log], []⟩
    guard.accepts "/logs/a.log" = true ∧
      fs.resolve .use "/logs/a.log" =
        .ok (.entry ["logs", "a.log"] (.file (.ofBytes bytes))) ∧
      (Line.texts bytes).length < UInt32.size ∧ (1 : UInt32) ≤ 2 ∧
      ∃ cut : List (List String), cut.flatten = ["1", "", "3"] ∧ cut.length = 2 ∧
        Paging guard fs "/logs/a.log" 2 0 (pageWindows 3 0 cut) := by
  intro guard bytes log fs
  have haccepts : guard.accepts "/logs/a.log" = true := by decide +kernel
  have hfile : fs.resolve .use "/logs/a.log" =
      .ok (.entry ["logs", "a.log"] (.file (.ofBytes bytes))) := by
    have hnames : FileSystem.steps .use "/logs/a.log" = ["logs", "a.log"] := by decide +kernel
    have horigin : fs.origin "/logs/a.log" = [] := by decide +kernel
    have hrefusal : FileSystem.refusal? "/logs/a.log" = none := by decide +kernel
    have hlogs : "logs".utf8ByteSize = 4 := by decide +kernel
    have hlog : "a.log".utf8ByteSize = 5 := by decide +kernel
    rw [FileSystem.resolve, hrefusal, hnames, horigin]
    simp [FileSystem.walk, FileSystem.isDirectory, FileSystem.entry?, FileSystem.nameLimit, fs,
      log, hlogs, hlog]
  have htexts : Line.texts bytes = ["1", "", "3"] := by decide +kernel
  have hlines : (Line.texts bytes).length < UInt32.size := by rw [htexts]; decide
  obtain ⟨cut, hflatten, hlength, hpaging, -, -⟩ :=
    paging_tiles haccepts hfile hlines (show (1 : UInt32) ≤ 2 by decide)
  rw [htexts] at hflatten hlength hpaging
  exact ⟨haccepts, hfile, hlines, by decide, cut, hflatten, hlength, (hpaging _).mpr rfl⟩

end

end RemoteLog.Log
