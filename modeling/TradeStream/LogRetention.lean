import TradeStream.LogRotation

/-! Which files the rotation of logs deletes, in any history of runs and of other programs'
writes. -/
namespace TradeStream.LogRotation
open TradeStream.Glob TradeStream.InsertionDict TradeStream.IsoText
open scoped List

/-- What a run does to the files, with the clock that it reads for it. -/
inductive Step where
  | rotate (log : Path) (now : IsoInstant)
  | cleanupOld (log : Path) (now : IsoInstant)
  | cleanupAged (now : IsoInstant)

/-- The files that later calls of `rotate_file` made of the same log. -/
def newerFiles (files : Files) (r : Rotation) : Files :=
  files.filter fun e => ∃ r' ∈ e.2.madeBy, r'.log = r.log ∧ r.time.clock < r'.time.clock

section
variable (host : Host) (config : LogRotationConfig)

/-- A file that may be deleted: no pattern finds it, `rotate_file` made it, and enough newer
ones were made of its log, or it is over age. -/
structure Deletable (now : IsoInstant) (files : Files) (e : Path × File) : Prop where
  notLive : e.1 ∉ findLogFiles host config files
  made : ∃ r ∈ e.2.madeBy,
    config.maxRotatedFiles ≤ (newerFiles files r).length ∨ isAged config now e.2

/-- What a step has to keep: it writes where no file is, and it deletes what may be. -/
def Step.Keeps (files : Files) : Step → Prop
  | .rotate log now => ∀ suffix ∈ (if config.compress then ["", ".gz"] else [""]),
      rotatedPath config log now suffix ∉ files.map Prod.fst
  | .cleanupOld log now => ∀ e ∈ files, e.1 ∈ excessFiles host config files log →
      Deletable host config now files e
  | .cleanupAged now => ∀ logDir ∈ config.logDirs.filter host.isDir,
      ∀ e ∈ files, e.1 ∈ agedFiles config now files logDir → Deletable host config now files e

/-- A rotated file of that log, where its rotated files are put. -/
def RotatedOf (log : Path) (e : Path × File) : Prop :=
  e.1.dir = destination config log ∧ ∃ r ∈ e.2.madeBy, r.log = log

/-- Where a step may be taken: no file has a name that the rotation would use, the files that
are counted for a log are rotated files of it if any of them is beyond the limit, those over
age in a log directory that look rotated are rotated files, and none to be deleted is live. -/
def Step.Meets (files : Files) : Step → Prop
  | .rotate log now => ∀ suffix ∈ ["", ".gz"],
      rotatedPath config log now suffix ∉ files.map Prod.fst
  | .cleanupOld log _ => excessFiles host config files log ≠ [] →
      (∀ e ∈ files, e.1 ∈ rotatedFiles host config files log → RotatedOf config log e) ∧
        ∀ p ∈ excessFiles host config files log, p ∉ findLogFiles host config files
  | .cleanupAged now => ∀ logDir ∈ config.logDirs.filter host.isDir,
      ∀ e ∈ files, e.1 ∈ agedFiles config now files logDir →
        e.1 ∉ findLogFiles host config files ∧ e.2.madeBy.isSome

/-- Each step that a run takes, in the files as they are before it. -/
def EachStep (P : Files → Step → Prop) (clock : Path → IsoInstant) (last : IsoInstant) :
    List Path → Files → Prop
  | [], files => P files (.cleanupAged last)
  | log :: logs, files =>
    if shouldRotate config files log then
      let rotated := rotateFile host config (clock log) files log
      P files (.rotate log (clock log)) ∧ P rotated (.cleanupOld log (clock log)) ∧
        EachStep P clock last logs (cleanupOldRotatedFiles host config rotated log)
    else EachStep P clock last logs files

end

/-- Another program writes or deletes a file, or the rotator runs. -/
inductive Event where
  | write (path : Path) (content : List UInt8) (mtime : ℚ)
  | delete (path : Path)
  | run (host : Host) (config : LogRotationConfig) (clock : Path → IsoInstant)
    (last : IsoInstant)

def Event.apply (files : Files) : Event → Files
  | .write path content mtime => setItem files path ⟨content, mtime, none⟩
  | .delete path => remove files path
  | .run host config clock last => LogRotation.run host config clock last files

def Event.EachStep (P : Host → LogRotationConfig → Files → Step → Prop) (files : Files) :
    Event → Prop
  | .run host config clock last =>
    LogRotation.EachStep host config (P host config) clock last
      (findLogFiles host config files) files
  | _ => True

/-- Each step of each run of a history. -/
def EachRun (P : Host → LogRotationConfig → Files → Step → Prop) :
    Files → List Event → Prop
  | _, [] => True
  | files, e :: events => e.EachStep P files ∧ EachRun P (e.apply files) events

section
variable (host : Host) (config : LogRotationConfig)

instance (log : Path) : DecidablePred (RotatedOf config log) :=
  fun _ => inferInstanceAs (Decidable (_ ∧ _))

instance (files : Files) : ∀ step, Decidable (Step.Meets host config files step)
  | .rotate _ _ => inferInstanceAs (Decidable (∀ _ ∈ _, _))
  | .cleanupOld _ _ => inferInstanceAs (Decidable (_ → _ ∧ _))
  | .cleanupAged _ => inferInstanceAs (Decidable (∀ _ ∈ _, ∀ _ ∈ _, _ → _))

instance decidableEachStep (P : Files → Step → Prop) [∀ files step, Decidable (P files step)]
    (clock : Path → IsoInstant) (last : IsoInstant) :
    ∀ logs files, Decidable (EachStep host config P clock last logs files)
  | [], files => inferInstanceAs (Decidable (P files _))
  | log :: logs, files =>
    have : ∀ files, Decidable (EachStep host config P clock last logs files) :=
      decidableEachStep P clock last logs
    decidable_of_iff (if shouldRotate config files log then
        P files (.rotate log (clock log)) ∧
          P (rotateFile host config (clock log) files log) (.cleanupOld log (clock log)) ∧
          EachStep host config P clock last logs (cleanupOldRotatedFiles host config
            (rotateFile host config (clock log) files log) log)
      else EachStep host config P clock last logs files) Iff.rfl

end

section
variable (P : Host → LogRotationConfig → Files → Step → Prop)
  [∀ host config files step, Decidable (P host config files step)]

instance (files : Files) : ∀ e : Event, Decidable (e.EachStep P files)
  | .write _ _ _ => .isTrue trivial
  | .delete _ => .isTrue trivial
  | .run host config clock last =>
    decidableEachStep host config (P host config) clock last
      (findLogFiles host config files) files

instance decidableEachRun : ∀ files events, Decidable (EachRun P files events)
  | _, [] => .isTrue trivial
  | files, e :: events =>
    have := decidableEachRun (e.apply files) events
    inferInstanceAs (Decidable (e.EachStep P files ∧ EachRun P (e.apply files) events))

end

/-! ### Rotated files -/

/-- What holds of the files: each is there once, one that `rotate_file` made has the name that
it gave it, and no two in one directory were made of one log in one second. -/
structure Tidy (files : Files) : Prop where
  nodup : (files.map Prod.fst).Nodup
  named : ∀ p f, (p, f) ∈ files → ∀ r ∈ f.madeBy,
    ∃ suffix ∈ ["", ".gz"], p.name = rotatedName r.log.name r.time suffix
  distinct : ∀ p f, (p, f) ∈ files → ∀ q g, (q, g) ∈ files → ∀ r ∈ f.madeBy, ∀ s ∈ g.madeBy,
    r.log = s.log → r.time.clock = s.time.clock → p.dir = q.dir → p = q

theorem stamp_append_lt_iff (a b : IsoInstant) (u v : List Char) :
    stamp a ++ u < stamp b ++ v ↔ a.clock < b.clock ∨ a.clock = b.clock ∧ u < v := by
  rw [IsoInstant.clock_lt_iff, IsoInstant.clock_eq_iff]
  simp only [stamp, IsoInstant.fields, List.append_assoc,
    padded_append_lt_iff a.year_lt b.year_lt,
    IsoInstant.twoDigits_append_lt_iff a.month_lt b.month_lt,
    IsoInstant.twoDigits_append_lt_iff a.day_lt b.day_lt,
    IsoInstant.twoDigits_append_lt_iff a.hour_lt_sixty b.hour_lt_sixty,
    IsoInstant.twoDigits_append_lt_iff a.minute_lt b.minute_lt,
    IsoInstant.twoDigits_append_lt_iff a.second_lt b.second_lt, List.cons_lt_cons_iff,
    lt_irrefl, List.cons.injEq, and_true, and_false, or_false]
  simp only [and_or_left, and_assoc, or_assoc]

theorem stamp_eq_of_clock {a b : IsoInstant} (h : a.clock = b.clock) : stamp a = stamp b := by
  have hfields := IsoInstant.clock_eq_iff.mp h
  simp only [IsoInstant.fields, List.cons.injEq, and_true] at hfields
  obtain ⟨hyear, hmonth, hday, hhour, hminute, hsecond⟩ := hfields
  simp only [stamp, hyear, hmonth, hday, hhour, hminute, hsecond]

/-- Of the rotated files of a name in one directory, the greater text is not the older one. -/
theorem clock_le_of_text_lt {p q : Path} {name suffix suffix' : String} {a b : IsoInstant}
    (hdir : p.dir = q.dir) (hp : p.name = rotatedName name a suffix)
    (hq : q.name = rotatedName name b suffix') (h : p.text < q.text) : a.clock ≤ b.clock := by
  rw [Path.text, Path.text, hdir, IsoInstant.append_lt_append_iff, List.cons_lt_cons_self, hp, hq,
    rotatedName, rotatedName] at h
  simp only [String.toList_append, String.toList_ofList, List.append_assoc,
    IsoInstant.append_lt_append_iff, stamp_append_lt_iff] at h
  rcases h with hlt | ⟨heq, -⟩
  · exact hlt.le
  · exact heq.le

/-! ### What a step keeps tidy -/

theorem remove_sublist (files : Files) (p : Path) : remove files p <+ files :=
  List.filter_sublist

theorem removeAll_sublist (ps : List Path) (files : Files) : ps.foldl remove files <+ files := by
  induction ps generalizing files with
  | nil => exact List.Sublist.refl _
  | cons p ps ih => exact (ih _).trans (remove_sublist files p)

theorem cleanupOldRotatedFiles_sublist (host : Host) (config : LogRotationConfig)
    (files : Files) (log : Path) : cleanupOldRotatedFiles host config files log <+ files :=
  removeAll_sublist _ files

theorem cleanupAgedFiles_sublist (host : Host) (config : LogRotationConfig) (now : IsoInstant)
    (files : Files) : cleanupAgedFiles host config now files <+ files := by
  rw [cleanupAgedFiles]
  generalize config.logDirs.filter host.isDir = dirs
  induction dirs generalizing files with
  | nil => exact List.Sublist.refl _
  | cons dir dirs ih => exact (ih _).trans (removeAll_sublist _ files)

namespace Tidy
variable {files : Files}

theorem of_sublist {files' : Files} (h : Tidy files) (hsub : files' <+ files) : Tidy files' where
  nodup := h.nodup.sublist (hsub.map Prod.fst)
  named p f hf := h.named p f (hsub.subset hf)
  distinct p f hf q g hg := h.distinct p f (hsub.subset hf) q g (hsub.subset hg)

theorem eq_of_mem (h : Tidy files) {p : Path} {f g : File} (hf : (p, f) ∈ files)
    (hg : (p, g) ∈ files) : f = g := by
  have hlookup := lookup_eq_some_of_mem h.nodup hf
  rw [lookup_eq_some_of_mem h.nodup hg] at hlookup
  exact (Option.some.inj hlookup).symm

/-- A file that `rotate_file` did not make. -/
theorem write (h : Tidy files) (p : Path) {f : File} (hf : f.madeBy = none) :
    Tidy (setItem files p f) where
  nodup := nodup_keys_setItem h.nodup p f
  named q g hg r hr := by
    rcases eq_or_mem_of_mem_setItem hg with heq | ⟨hold, -⟩
    · obtain ⟨rfl, rfl⟩ := Prod.mk.inj heq
      rw [hf] at hr
      cases hr
    · exact h.named q g hold r hr
  distinct q g hg q' g' hg' r hr s hs := by
    rcases eq_or_mem_of_mem_setItem hg with heq | ⟨hold, -⟩
    · obtain ⟨rfl, rfl⟩ := Prod.mk.inj heq
      rw [hf] at hr
      cases hr
    · rcases eq_or_mem_of_mem_setItem hg' with heq | ⟨hold', -⟩
      · obtain ⟨rfl, rfl⟩ := Prod.mk.inj heq
        rw [hf] at hs
        cases hs
      · exact h.distinct q g hold q' g' hold' r hr s hs

/-- One of which no other is there under the names of its second. -/
theorem rotated {config : LogRotationConfig} {log : Path} {now : IsoInstant} {suffix : String}
    {f : File} (h : Tidy files) (hsuffix : suffix ∈ ["", ".gz"])
    (hf : f.madeBy = some ⟨log, now⟩)
    (hfree : ∀ suffix ∈ ["", ".gz"], rotatedPath config log now suffix ∉ files.map Prod.fst) :
    Tidy (setItem files (rotatedPath config log now suffix) f) := by
  have hother : ∀ q g, (q, g) ∈ files → ∀ s ∈ g.madeBy, s.log = log →
      s.time.clock = now.clock → q.dir ≠ destination config log := by
    intro q g hg s hs hlog hclock hdir
    obtain ⟨suffix', hsuffix', hname⟩ := h.named q g hg s hs
    rw [hlog, rotatedName, stamp_eq_of_clock hclock] at hname
    have hq : q = rotatedPath config log now suffix' := by
      rw [rotatedPath, rotatedName, ← hdir, ← hname]
    exact hfree suffix' hsuffix' (hq ▸ List.mem_map_of_mem hg)
  refine ⟨nodup_keys_setItem h.nodup _ _, ?_, ?_⟩
  · intro q g hg r hr
    rcases eq_or_mem_of_mem_setItem hg with heq | ⟨hold, -⟩
    · obtain ⟨rfl, rfl⟩ := Prod.mk.inj heq
      rw [hf] at hr
      obtain rfl := Option.some.inj hr
      exact ⟨suffix, hsuffix, rfl⟩
    · exact h.named q g hold r hr
  · intro q g hg q' g' hg' r hr s hs hlog hclock hdir
    rcases eq_or_mem_of_mem_setItem hg with heq | ⟨hold, -⟩
    · obtain ⟨rfl, rfl⟩ := Prod.mk.inj heq
      rw [hf] at hr
      obtain rfl := Option.some.inj hr
      rcases eq_or_mem_of_mem_setItem hg' with heq' | ⟨hold', -⟩
      · exact (Prod.mk.inj heq').1.symm
      · exact absurd hdir.symm (hother q' g' hold' s hs hlog.symm hclock.symm)
    · rcases eq_or_mem_of_mem_setItem hg' with heq' | ⟨hold', -⟩
      · obtain ⟨rfl, rfl⟩ := Prod.mk.inj heq'
        rw [hf] at hs
        obtain rfl := Option.some.inj hs
        exact absurd hdir (hother q g hold r hr hlog hclock)
      · exact h.distinct q g hold q' g' hold' r hr s hs hlog hclock hdir

end Tidy

theorem mem_keys_remove {files : Files} {p q : Path} (h : q ≠ p) :
    q ∈ (remove files p).map Prod.fst ↔ q ∈ files.map Prod.fst := by
  simp only [remove, List.mem_map, List.mem_filter, decide_eq_true_eq]
  constructor
  · rintro ⟨e, ⟨he, -⟩, rfl⟩
    exact ⟨e, he, rfl⟩
  · rintro ⟨e, he, rfl⟩
    exact ⟨e, ⟨he, h⟩, rfl⟩

/-- What is done to the file of one path does not meet another path. -/
theorem remove_setItem_of_ne {files : Files} {p q : Path} (h : q ≠ p) (f : File) :
    remove (setItem files q f) p = setItem (remove files p) q f := by
  rw [setItem, setItem, if_congr (mem_keys_remove h) rfl rfl]
  split_ifs with hmem
  · rw [remove, List.filter_map, remove]
    congr 1
    apply List.filter_congr
    intro e _
    by_cases he : e.1 = q <;> simp [he]
  · simp [remove, h]

theorem remove_setItem_self (files : Files) (p : Path) (f : File) :
    remove (setItem files p f) p = remove files p := by
  rw [setItem]
  split_ifs with hmem
  · rw [remove, List.filter_map]
    have hkeys : (files.filter ((fun e => decide (e.1 ≠ p)) ∘
        fun e => if e.1 = p then (p, f) else e)) = remove files p := by
      apply List.filter_congr
      intro e _
      by_cases he : e.1 = p <;> simp [he]
    rw [hkeys]
    have hid : ∀ e ∈ remove files p, (if e.1 = p then (p, f) else e) = e := by
      intro e he
      exact if_neg (by simpa [remove] using (List.mem_filter.mp he).2)
    rw [List.map_congr_left hid, List.map_id']
  · simp [remove]

theorem rotatedPath_ne (config : LogRotationConfig) (log : Path) (now : IsoInstant)
    (suffix : String) : rotatedPath config log now suffix ≠ log := by
  intro h
  have hname := congrArg (fun p => p.name.toList.length) h
  simp [rotatedPath, rotatedName] at hname

theorem gzPath_ne (config : LogRotationConfig) (log : Path) (now : IsoInstant) :
    rotatedPath config log now ".gz" ≠ rotatedPath config log now "" := by
  intro h
  have hname := congrArg (fun p => p.name.toList.length) h
  simp [rotatedPath, rotatedName] at hname

/-- The file under the name without a suffix, where compression has it, is gone at the end. -/
theorem rotateFile_compress (host : Host) {config : LogRotationConfig} {now : IsoInstant}
    {files : Files} {log : Path} {f : File} (hf : files.lookup log = some f)
    (hcompress : config.compress = true) : rotateFile host config now files log =
      setItem (setItem (remove (remove files log) (rotatedPath config log now ""))
        log ⟨[], now.wallTime, none⟩) (rotatedPath config log now ".gz")
        ⟨host.gzip f.content, now.wallTime, some ⟨log, now⟩⟩ := by
  rw [rotateFile, hf]
  dsimp only
  rw [if_pos hcompress, remove_setItem_of_ne (gzPath_ne config log now),
    remove_setItem_of_ne (rotatedPath_ne config log now "").symm, remove_setItem_self]

theorem Tidy.rotateFile {files : Files} (h : Tidy files) (host : Host)
    {config : LogRotationConfig} {log : Path} {now : IsoInstant}
    (hfree : ∀ suffix ∈ ["", ".gz"], rotatedPath config log now suffix ∉ files.map Prod.fst) :
    Tidy (rotateFile host config now files log) := by
  cases hf : files.lookup log with
  | none =>
    rw [LogRotation.rotateFile, hf]
    exact h
  | some f =>
    have hbase := h.of_sublist (remove_sublist files log)
    have hkeys := ((remove_sublist files log).map Prod.fst).subset
    by_cases hcompress : config.compress = true
    · rw [rotateFile_compress host hf hcompress]
      have hsub := remove_sublist (remove files log) (rotatedPath config log now "")
      have hlog := (hbase.of_sublist hsub).write log (f := ⟨[], now.wallTime, none⟩) rfl
      apply hlog.rotated (by simp) rfl
      intro suffix hsuffix hmem
      obtain ⟨e, he, hpath⟩ := List.mem_map.mp hmem
      rcases eq_or_mem_of_mem_setItem he with rfl | ⟨hold, -⟩
      · exact rotatedPath_ne config log now suffix hpath.symm
      · exact hfree suffix hsuffix
          (hkeys (hpath ▸ List.mem_map_of_mem (hsub.subset hold)))
    · rw [LogRotation.rotateFile, hf]
      dsimp only
      rw [if_neg hcompress]
      have hrotated : Tidy (setItem (remove files log) (rotatedPath config log now "")
          ⟨f.content, f.mtime, some ⟨log, now⟩⟩) := by
        apply hbase.rotated (by simp) rfl
        exact fun suffix hsuffix hmem => hfree suffix hsuffix (hkeys hmem)
      exact hrotated.write log rfl

/-! ### What is deleted -/

theorem nodup_globFiles (host : Host) {files : Files} (h : Tidy files) (dir : String)
    (last : List Char) : (globFiles host files dir last).Nodup := by
  have hdirs : (if hasMagic dir.toList then (host.expand dir).dedup else [dir]).Nodup := by
    split_ifs
    · exact List.nodup_dedup _
    · exact List.nodup_singleton _
  rw [globFiles, List.nodup_flatMap]
  constructor
  · intro d _
    exact h.nodup.sublist (List.filter_sublist.map Prod.fst)
  · refine hdirs.pairwise_of_forall_ne ?_
    intro d _ d' _ hne p hp hp'
    obtain ⟨e, he, rfl⟩ := List.mem_map.mp hp
    obtain ⟨e', he', heq⟩ := List.mem_map.mp hp'
    have hd := (of_decide_eq_true (List.mem_filter.mp he).2).1
    have hd' := (of_decide_eq_true (List.mem_filter.mp he').2).1
    exact hne (by rw [← hd, ← hd', heq])

theorem mem_of_mem_globFiles {host : Host} {files : Files} {dir : String} {last : List Char}
    {p : Path} (h : p ∈ globFiles host files dir last) : ∃ f, (p, f) ∈ files := by
  obtain ⟨d, -, hp⟩ := List.mem_flatMap.mp h
  obtain ⟨⟨_, f⟩, he, rfl⟩ := List.mem_map.mp hp
  exact ⟨f, List.mem_of_mem_filter he⟩

/-- For names without special characters: the files of the directory whose names begin with
that of the log and a dot, whoever made them. -/
theorem mem_rotatedFiles_iff (host : Host) {config : LogRotationConfig} {log : Path}
    (hdir : hasMagic (destination config log).toList = false)
    (hname : hasMagic log.name.toList = false) (files : Files) (p : Path) :
    p ∈ rotatedFiles host config files log ↔ p ∈ files.map Prod.fst ∧
      p.dir = destination config log ∧ log.name.toList ++ ['.'] <+: p.name.toList := by
  have hpattern : (log.name ++ ".*").toList = (log.name.toList ++ ['.']) ++ ['*'] := by simp
  have hplain : hasMagic (log.name.toList ++ ['.']) = false := by
    simpa [hasMagic, isMagic] using hname
  have hmagic : hasMagic ((log.name.toList ++ ['.']) ++ ['*']) = true := by
    simp [hasMagic, isMagic]
  have hmatches : ∀ name, matchesName ((log.name.toList ++ ['.']) ++ ['*']) name = true ↔
      log.name.toList ++ ['.'] <+: name := by
    intro name
    rw [matchesName, if_pos hmagic, Bool.and_eq_true, fnmatch_append_star hplain]
    refine and_iff_right_of_imp ?_
    -- it is hidden just where the pattern is
    rintro ⟨rest, rfl⟩
    cases log.name.toList <;> simp [isHidden]
  rw [rotatedFiles, (List.perm_insertionSort _ _).mem_iff, globFiles, if_neg (by simp [hdir]),
    List.flatMap_singleton, hpattern]
  simp only [List.mem_map, List.mem_filter, decide_eq_true_eq, hmatches]
  constructor
  · rintro ⟨e, ⟨he, hedir, hprefix⟩, rfl⟩
    exact ⟨⟨e, he, rfl⟩, hedir, hprefix⟩
  · rintro ⟨⟨e, he, rfl⟩, hedir, hprefix⟩
    exact ⟨e, ⟨he, hedir, hprefix⟩, rfl⟩

instance : Std.Total fun p q : Path => q.text ≤ p.text := ⟨fun p q => le_total q.text p.text⟩

instance : IsTrans Path fun p q => q.text ≤ p.text := ⟨fun _ _ _ h h' => h'.trans h⟩

theorem text_inj_of_dir {p q : Path} (hdir : p.dir = q.dir) (h : p.text = q.text) : p = q := by
  rw [Path.text, Path.text, hdir, List.append_cancel_left_eq, List.cons_eq_cons,
    String.toList_inj] at h
  obtain ⟨dir, name⟩ := p
  obtain ⟨dir', name'⟩ := q
  obtain rfl : dir = dir' := hdir
  obtain rfl : name = name' := h.2
  rfl

/-- Of two rotated files of a log in one directory, that with the greater name is newer. -/
theorem clock_lt_of_text_le {config : LogRotationConfig} {files : Files} {log p q : Path}
    {f g : File} {r : Rotation} (h : Tidy files) (hf : (p, f) ∈ files) (hg : (q, g) ∈ files)
    (hp : RotatedOf config log (p, f)) (hq : RotatedOf config log (q, g)) (hr : r ∈ f.madeBy)
    (hne : q ≠ p) (hle : p.text ≤ q.text) :
    ∃ s ∈ g.madeBy, s.log = r.log ∧ r.time.clock < s.time.clock := by
  obtain ⟨hpdir, r', hr', hrlog⟩ := hp
  obtain ⟨hqdir, s, hs, hslog⟩ := hq
  obtain rfl := Option.some.inj (hr.symm.trans hr')
  have hdir : p.dir = q.dir := hpdir.trans hqdir.symm
  obtain ⟨suffix, -, hpname⟩ := h.named p f hf r hr
  obtain ⟨suffix', -, hqname⟩ := h.named q g hg s hs
  rw [hslog] at hqname
  rw [hrlog] at hpname
  have hlt : p.text < q.text :=
    lt_of_le_of_ne hle fun heq => hne (text_inj_of_dir hdir heq).symm
  refine ⟨s, hs, hslog.trans hrlog.symm, ?_⟩
  refine lt_of_le_of_ne (clock_le_of_text_lt hdir hpname hqname hlt) fun hclock => hne ?_
  exact (h.distinct p f hf q g hg r hr s hs (hrlog.trans hslog.symm) hclock hdir).symm

/-- At least as many rotated files as are kept are newer than one that is beyond the limit. -/
theorem le_length_newerFiles (host : Host) {config : LogRotationConfig} {files : Files}
    {log : Path} (h : Tidy files)
    (hrotated : ∀ e ∈ files, e.1 ∈ rotatedFiles host config files log → RotatedOf config log e)
    {p : Path} (hp : p ∈ excessFiles host config files log) {f : File} (hf : (p, f) ∈ files)
    {r : Rotation} (hr : r ∈ f.madeBy) :
    config.maxRotatedFiles ≤ (newerFiles files r).length := by
  rcases lt_or_ge config.maxRotatedFiles 0 with hneg | hnonneg
  · omega
  · obtain ⟨keep, hkeep⟩ := Int.eq_ofNat_of_zero_le hnonneg
    rw [excessFiles, sliceFrom, if_pos hnonneg, hkeep, Int.toNat_natCast] at hp
    have hsorted : (rotatedFiles host config files log).Pairwise fun p q => q.text ≤ p.text :=
      List.pairwise_insertionSort _ _
    have hnodup : (rotatedFiles host config files log).Nodup :=
      (List.perm_insertionSort _ _).nodup_iff.mpr (nodup_globFiles host h _ _)
    -- the kept files come before it, with greater names
    rw [← List.take_append_drop keep (rotatedFiles host config files log)] at hsorted hnodup
    have hbefore := (List.pairwise_append.mp hsorted).2.2
    have hdisjoint := (List.nodup_append.mp hnodup).2.2
    have hkept : ∀ q ∈ (rotatedFiles host config files log).take keep,
        q ∈ (newerFiles files r).map Prod.fst := by
      intro q hq
      have hmem := List.mem_of_mem_take hq
      obtain ⟨g, hg⟩ := mem_of_mem_globFiles ((List.perm_insertionSort _ _).mem_iff.mp hmem)
      obtain ⟨s, hs, hlog, hclock⟩ := clock_lt_of_text_le h hf hg
        (hrotated _ hf (List.mem_of_mem_drop hp)) (hrotated _ hg hmem) hr
        (hdisjoint q hq p hp) (hbefore q hq p hp)
      exact List.mem_map.mpr ⟨(q, g), List.mem_filter.mpr
        ⟨hg, decide_eq_true ⟨s, hs, hlog, hclock⟩⟩, rfl⟩
    have hlength : keep < (rotatedFiles host config files log).length := by
      by_contra hle
      rw [List.drop_eq_nil_of_le (not_lt.mp hle)] at hp
      exact List.not_mem_nil hp
    have hle := ((List.nodup_append.mp hnodup).1.subperm hkept).length_le
    rw [List.length_take_of_le hlength.le, List.length_map] at hle
    rw [hkeep]
    exact_mod_cast hle

/-- Of the files over age, the condition is exact. -/
theorem keeps_cleanupAged_iff (host : Host) (config : LogRotationConfig) {files : Files}
    (h : Tidy files) (now : IsoInstant) :
    (Step.cleanupAged now).Keeps host config files ↔
      (Step.cleanupAged now).Meets host config files := by
  refine forall₂_congr fun logDir _ => forall₂_congr fun e he => forall_congr' fun haged => ?_
  constructor
  · rintro ⟨hnotLive, r, hr, -⟩
    exact ⟨hnotLive, Option.isSome_iff_exists.mpr ⟨r, hr⟩⟩
  · rintro ⟨hnotLive, hmade⟩
    obtain ⟨r, hr⟩ := Option.isSome_iff_exists.mp hmade
    obtain ⟨⟨p, f⟩, hmem, hpath⟩ := List.mem_map.mp haged
    obtain ⟨hmem, hlooks⟩ := List.mem_filter.mp hmem
    obtain ⟨q, g⟩ := e
    obtain rfl : p = q := hpath
    obtain rfl := h.eq_of_mem he hmem
    exact ⟨hnotLive, r, hr, Or.inr (of_decide_eq_true hlooks).2.2⟩

theorem Step.keeps_of_meets {host : Host} {config : LogRotationConfig} {files : Files}
    {step : Step} (h : Tidy files) (hmeets : step.Meets host config files) :
    step.Keeps host config files := by
  cases step with
  | rotate log now =>
    intro suffix hsuffix
    apply hmeets suffix
    split_ifs at hsuffix
    · exact hsuffix
    · rw [List.mem_singleton.mp hsuffix]
      exact List.mem_cons_self
  | cleanupOld log now =>
    intro e he hexcess
    obtain ⟨hrotated, hnotLive⟩ := hmeets (List.ne_nil_of_mem hexcess)
    obtain ⟨-, r, hr, -⟩ := hrotated e he (List.mem_of_mem_drop hexcess)
    exact ⟨hnotLive e.1 hexcess, r, hr,
      Or.inl (le_length_newerFiles host h hrotated hexcess he hr)⟩
  | cleanupAged now => exact (keeps_cleanupAged_iff host config h now).mpr hmeets

/-! ### Runs and histories -/

section
variable {host : Host} {config : LogRotationConfig} {clock : Path → IsoInstant}
  {last : IsoInstant}

theorem eachStep_keeps (logs : List Path) {files : Files} (h : Tidy files)
    (hmeets : EachStep host config (Step.Meets host config) clock last logs files) :
    EachStep host config (Step.Keeps host config) clock last logs files ∧
      Tidy (runLogs host config clock last logs files) := by
  induction logs generalizing files with
  | nil =>
    exact ⟨Step.keeps_of_meets h hmeets, h.of_sublist (cleanupAgedFiles_sublist _ _ _ _)⟩
  | cons log logs ih =>
    rw [EachStep] at hmeets ⊢
    rw [runLogs]
    split_ifs at hmeets ⊢ with hrotate
    · obtain ⟨hfree, hold, hrest⟩ := hmeets
      have hrotated := h.rotateFile host hfree
      have hcleaned := hrotated.of_sublist (cleanupOldRotatedFiles_sublist host config _ log)
      obtain ⟨hkeeps, htidy⟩ := ih hcleaned hrest
      exact ⟨⟨Step.keeps_of_meets h hfree, Step.keeps_of_meets hrotated hold, hkeeps⟩, htidy⟩
    · exact ih h hmeets

end

theorem Tidy.event {files : Files} (h : Tidy files) {e : Event}
    (hmeets : e.EachStep Step.Meets files) :
    e.EachStep Step.Keeps files ∧ Tidy (e.apply files) := by
  cases e with
  | write path content mtime => exact ⟨trivial, h.write path rfl⟩
  | delete path => exact ⟨trivial, h.of_sublist (remove_sublist files path)⟩
  | run host config clock last => exact eachStep_keeps _ h hmeets

theorem eachRun_keeps {files : Files} (h : Tidy files) {events : List Event}
    (hmeets : EachRun Step.Meets files events) : EachRun Step.Keeps files events := by
  induction events generalizing files with
  | nil => trivial
  | cons e events ih =>
    obtain ⟨hkeeps, htidy⟩ := h.event hmeets.1
    exact ⟨hkeeps, ih htidy hmeets.2⟩

theorem tidy_nil : Tidy [] where
  nodup := List.nodup_nil
  named _ _ h := absurd h List.not_mem_nil
  distinct _ _ h := absurd h List.not_mem_nil

/-- In a history whose steps all meet the condition, the rotator only deletes what it may. -/
theorem history_keeps (events : List Event) (hmeets : EachRun Step.Meets [] events) :
    EachRun Step.Keeps [] events :=
  eachRun_keeps tidy_nil hmeets

/-! ### Two histories -/

theorem midday_year_lt : 2026 < 10 ^ 4 := by decide

theorem midday_hour_lt : 12 < 24 := by decide

theorem midday_minute_lt : 0 < 60 := by decide

theorem midday_decimals_lt : ∀ d ∈ ([] : List ℕ), d < 10 := List.forall_mem_nil _

def midday (month day : ℕ) (hmonth : 1 ≤ month ∧ month ≤ 12)
    (hday : 1 ≤ day ∧ day ≤ daysInMonth 2026 month) : IsoInstant where
  year := 2026
  month := month
  day := day
  hour := 12
  minute := 0
  second := 0
  decimals := []
  zone := .utc
  year_lt := midday_year_lt
  month_mem := hmonth
  day_mem := hday
  hour_lt := midday_hour_lt
  minute_lt := midday_minute_lt
  second_lt := midday_minute_lt
  decimals_lt := midday_decimals_lt

theorem january_mem : 1 ≤ 1 ∧ 1 ≤ 12 := by decide

theorem march_mem : 1 ≤ 3 ∧ 3 ≤ 12 := by decide

theorem newYear_mem : 1 ≤ 1 ∧ 1 ≤ daysInMonth 2026 1 := by decide

theorem marchFirst_mem : 1 ≤ 1 ∧ 1 ≤ daysInMonth 2026 3 := by decide

theorem marchSecond_mem : 1 ≤ 2 ∧ 2 ≤ daysInMonth 2026 3 := by decide

def newYear : IsoInstant := midday 1 1 january_mem newYear_mem

def marchFirst : IsoInstant := midday 3 1 march_mem marchFirst_mem

def marchSecond : IsoInstant := midday 3 2 march_mem marchSecond_mem

/-- No directory has special characters here, and nothing is compressed. -/
def plainHost : Host := ⟨fun _ => true, fun _ => [], id⟩

/-- Every log that is not empty is rotated, and one rotated file is kept. -/
def onePerLog : LogRotationConfig :=
  { defaultConfig with maxSizeBytes := 1, maxRotatedFiles := 1, compress := false }

def appLog : Path := ⟨"/var/log/tradestream", "app.log"⟩

/-- A log that is rotated on two days. The second time the older file is deleted. -/
def twoRotations : List Event :=
  [.write appLog [0] marchFirst.wallTime,
    .run plainHost onePerLog (fun _ => marchFirst) marchFirst,
    .write appLog [0] marchSecond.wallTime,
    .run plainHost onePerLog (fun _ => marchSecond) marchSecond]

theorem twoRotations_keep : EachRun Step.Keeps [] twoRotations :=
  history_keeps twoRotations (by decide +kernel)

def notes : Path := ⟨"/var/log/tradestream", "notes.txt"⟩

/-- A file that is no log lies in a log directory for two months. -/
def oldNotes : List Event :=
  [.write notes [0] newYear.wallTime, .run plainHost defaultConfig (fun _ => marchFirst) marchFirst]

/-- Its name has a dot and no `.log` before it. -/
theorem oldNotes_not_kept : ¬ EachRun Step.Keeps [] oldNotes := by
  rintro ⟨-, hrun, -⟩
  have hfiles : Event.apply [] (.write notes [0] newYear.wallTime) =
      [(notes, ⟨[0], newYear.wallTime, none⟩)] := by simp [Event.apply, setItem]
  have hlogs : findLogFiles plainHost defaultConfig
      [(notes, ⟨[0], newYear.wallTime, none⟩)] = [] := by decide +kernel
  have haged : notes ∈ agedFiles defaultConfig marchFirst
      [(notes, ⟨[0], newYear.wallTime, none⟩)] "/var/log/tradestream" := by decide +kernel
  rw [hfiles, Event.EachStep, hlogs] at hrun
  obtain ⟨r, hr, -⟩ := (hrun "/var/log/tradestream" (by decide) _ List.mem_cons_self haged).made
  cases hr

end TradeStream.LogRotation
