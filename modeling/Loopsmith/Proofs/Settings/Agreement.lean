import Loopsmith.Proofs.Files.Operations
import Loopsmith.Proofs.Settings.Documents
import Loopsmith.Proofs.Settings.Thresholds
import Loopsmith.Proofs.Settings.Verbosity

/-!
# Settings from variables and from a document

The same choice of settings can be spelled in environment variables and in a document.  The two do
not always give the same settings.  An empty variable is as good as none, and so is a log filter of
blanks; a document keeps these texts.  A threshold that is not finite gives way to the default in a
variable, and a document keeps it or refuses it.

These are all the differences there are.  `spelled_alike_iff` says of every choice when its two
spellings give settings that are equal: when every text in it is one that a variable keeps, its
threshold is a finite number that a document takes, and there is a place for the store.
-/

namespace Loopsmith

/-! ## A natural number as a literal -/

namespace Literal

theorem head?_toDigits_ne {n : Nat} (h : n ≠ 0) : (Nat.toDigits 10 n).head? ≠ some '0' := by
  induction n using Nat.strongRecOn with
  | ind n ih =>
      rw [Nat.toDigits_eq_if (by omega)]
      split
      · next hsmall =>
          have hdigit : ∀ d < 10, d ≠ 0 → some (Nat.digitChar d) ≠ some '0' := by decide
          exact hdigit n hsmall h
      · rw [List.head?_append_of_ne_nil _ Nat.toDigits_ne_nil]
        exact ih (n / 10) (by omega) (by omega)

def ofNat (n : Nat) : Literal :=
  ⟨.none, .number ⟨Nat.toDigits 10 n, Nat.toDigits_ne_nil,
    fun _ hc => Nat.isDigit_of_mem_toDigits (by omega) (by omega) hc⟩
    (by
      by_cases h : n = 0
      · exact .inl (by rw [h]; rfl)
      · exact .inr (head?_toDigits_ne h)) none none⟩

theorem whole?_ofNat (n : Nat) : (ofNat n).whole? = some (n : Int) :=
  congrArg (fun m : Nat => some (m : Int)) (Decimal.ofDigits_toDigits n)

end Literal

theorem LogSettings.readVerbosity_toString (n : UInt8) : readVerbosity (toString n.toNat) = n := by
  have hbound : n.toNat ≤ 255 := Nat.le_of_lt_succ n.toNat_lt
  rw [readVerbosity_of_writtenAs (writtenAs_toString n.toNat), if_pos hbound]
  exact UInt8.ofNat_toNat

/-! ## Equal settings -/

/-- Policies are compared with their thresholds as numbers. -/
def Policy.same : Policy → Policy → Bool
  | always, always => true
  | below x, below y => x == y
  | _, _ => false

namespace Settings

/-- Settings with equal values. -/
structure Same (s t : Settings) : Prop where
  log : s.log = t.log
  saveIntermediates : s.saveIntermediates = t.saveIntermediates
  benchmark : s.benchmark = t.benchmark
  policy : s.policy.same t.policy = true
  workDir : s.workDir = t.workDir
  storeRoot : s.storeRoot = t.storeRoot

/-! ## A choice and its spellings -/

/-- Values for the settings, some of which may be left out. -/
structure Choice where
  verbosity : UInt8
  log : Option String
  logFile : Option String
  saveFiles : Bool
  benchmark : Bool
  threshold : Option Literal
  workDir : Option String
  cache : Bool
  cacheDir : Option String

/-- The words for on and off, and a variable that is not set for off. -/
inductive Spells : Bool → Option String → Prop where
  | on {word : String} (h : word ∈ ["1", "true", "on", "yes"]) : Spells true (some word)
  | off {word : String} (h : word ∈ ["0", "false", "off", "no"]) : Spells false (some word)
  | unset : Spells false none

theorem Spells.toggle_eq {b : Bool} {raw : Option String} (h : Spells b raw) : toggle raw = b := by
  cases h with
  | on h =>
      have hall : ∀ word ∈ ["1", "true", "on", "yes"], toggle (some word) = true := by decide
      exact hall _ h
  | off h =>
      have hall : ∀ word ∈ ["0", "false", "off", "no"], toggle (some word) = false := by decide
      exact hall _ h
  | unset => rfl

namespace Choice

/-- The variables that spell a choice. -/
structure SpelledBy (c : Choice) (env : Environment) : Prop where
  verbosity : env "DOPING_VERBOSE" = some (toString c.verbosity.toNat)
  log : env "DOPING_LOG" = c.log
  logFile : env "DOPING_LOG_FILE" = c.logFile
  saveFiles : Spells c.saveFiles (env "DOPING_SAVE_FILES")
  benchmark : Spells c.benchmark (env "DOPING_BENCHMARK")
  threshold : env "DOPING_THRESHOLD" = c.threshold.map Literal.text
  workDir : env "DOPING_WORK_DIR" = c.workDir
  cache : Spells c.cache (env "DOPING_CACHE")
  cacheDir : env "DOPING_CACHE_DIR" = c.cacheDir

/-- The line for a value, if there is one. -/
def given {α : Type} (key : String) (value : α → Toml.Value) (x : Option α) :
    List (String × Toml.Value) :=
  (x.map fun a => (key, value a)).toList

/-- The lines of a document that spell a choice, but for the threshold. -/
def plainLines (c : Choice) : List (String × Toml.Value) :=
  [("verbose", .number (.ofNat c.verbosity.toNat)), ("save_files", .boolean c.saveFiles),
    ("benchmark", .boolean c.benchmark), ("cache", .boolean c.cache)] ++
  (given "log" .string c.log ++ (given "log_file" .string c.logFile ++
    (given "work_dir" .string c.workDir ++ given "cache_dir" .string c.cacheDir)))

/-- The lines of a document that spell a choice. -/
def lines (c : Choice) : List (String × Toml.Value) :=
  c.plainLines ++ given "threshold" .number c.threshold

/-! ## From variables -/

/-- What a variable makes of a text, where none and an empty one are the same. -/
def nonEmpty (x : Option String) : Option String :=
  x.filter (· != "")

theorem ofEnvironment_fst (home : Option String) (env : Environment) :
    (ofEnvironment home env).1 =
      (storeRootIf (toggle (env "DOPING_CACHE")) home (nonEmpty (env "DOPING_CACHE_DIR"))).map
        fun storeRoot =>
          { log := .ofEnvironment env
            saveIntermediates := toggle (env "DOPING_SAVE_FILES")
            benchmark := toggle (env "DOPING_BENCHMARK")
            policy := (readPolicy (env "DOPING_THRESHOLD")).1
            workDir := nonEmpty (env "DOPING_WORK_DIR")
            storeRoot } :=
  rfl

/-- The policy that the threshold's variable asks for. -/
def policy (c : Choice) : Policy :=
  (c.threshold.map fun n => .below n.fromVariable).getD .always

theorem readPolicy_eq (c : Choice) : (readPolicy (c.threshold.map Literal.text)).1 = c.policy := by
  rw [policy]
  cases c.threshold with
  | none => rfl
  | some n => exact n.readPolicy_text

/-- The settings of a choice that is spelled in variables. -/
theorem ofEnvironment_of_spelledBy {c : Choice} {env : Environment} (h : c.SpelledBy env)
    (home : Option String) :
    (ofEnvironment home env).1 =
      (storeRootIf c.cache home (nonEmpty c.cacheDir)).map fun storeRoot =>
        { log := ⟨c.verbosity, c.log.filter (!Text.isBlankText ·), nonEmpty c.logFile⟩
          saveIntermediates := c.saveFiles
          benchmark := c.benchmark
          policy := c.policy
          workDir := nonEmpty c.workDir
          storeRoot } := by
  have hlog : LogSettings.ofEnvironment env =
      ⟨c.verbosity, c.log.filter (!Text.isBlankText ·), nonEmpty c.logFile⟩ := by
    rw [LogSettings.ofEnvironment, h.verbosity, h.log, h.logFile, Option.map_some,
      LogSettings.readVerbosity_toString]
    rfl
  rw [ofEnvironment_fst, hlog, h.threshold, h.workDir, h.cacheDir, h.saveFiles.toggle_eq,
    h.benchmark.toggle_eq, h.cache.toggle_eq, readPolicy_eq]

/-! ## From a document -/

/-- The keys that a document may have. -/
def keys : List String :=
  ["verbose", "save_files", "benchmark", "cache", "log", "log_file", "work_dir", "cache_dir",
    "threshold"]

theorem map_fst_given_sublist {α : Type} (key : String) (value : α → Toml.Value) (x : Option α) :
    ((given key value x).map Prod.fst).Sublist [key] := by
  cases x with
  | none => exact List.nil_sublist _
  | some a => exact List.Sublist.refl _

theorem map_fst_lines_sublist (c : Choice) : (c.lines.map Prod.fst).Sublist keys := by
  simp only [lines, plainLines, List.map_append]
  have hstrings := (map_fst_given_sublist "log" .string c.log).append
    ((map_fst_given_sublist "log_file" .string c.logFile).append
      ((map_fst_given_sublist "work_dir" .string c.workDir).append
        (map_fst_given_sublist "cache_dir" .string c.cacheDir)))
  exact ((List.Sublist.refl ["verbose", "save_files", "benchmark", "cache"]).append hstrings).append
    (map_fst_given_sublist "threshold" .number c.threshold)

theorem nodup_lines (c : Choice) : (c.lines.map Prod.fst).Nodup :=
  c.map_fst_lines_sublist.nodup (by decide)

theorem isBareKey_lines (c : Choice) : ∀ line ∈ c.lines, Toml.IsBareKey line.1 := by
  have hkeys : ∀ key ∈ keys, key.toList ≠ [] ∧ key.toList.all Toml.isBareKeyChar = true := by
    decide
  intro line hline
  have hkey := hkeys line.1 (c.map_fst_lines_sublist.subset (List.mem_map_of_mem hline))
  exact ⟨hkey.1, List.all_eq_true.1 hkey.2⟩

/-- The document that spells a choice, with the threshold that was read from it. -/
def document (c : Choice) (threshold : Option Float) : Document :=
  { verbose := some c.verbosity
    log := c.log
    logFile := c.logFile
    saveFiles := some c.saveFiles
    benchmark := some c.benchmark
    threshold
    workDir := c.workDir
    cache := some c.cache
    cacheDir := c.cacheDir }

theorem setting?_verbose (n : UInt8) :
    Document.setting? ("verbose", .number (.ofNat n.toNat)) = some (.verbose n) := by
  have hbound : n.toNat ≤ 255 := Nat.le_of_lt_succ n.toNat_lt
  have hscalar : (Literal.ofNat n.toNat).scalar? = some (.integer n.toNat) := by
    have hrange : Toml.inRange n.toNat = true := (Toml.inRange_iff _).2 (by omega)
    rw [Literal.scalar?, Literal.whole?_ofNat]
    exact if_pos hrange
  have hassignment : Toml.assignment? ("verbose", .number (.ofNat n.toNat)) =
      some ("verbose", .integer n.toNat) :=
    congrArg (Option.map (Prod.mk "verbose")) hscalar
  rw [Document.setting?, hassignment, Option.bind_some]
  refine (if_pos ?_).trans ?_
  · simp only [Bool.and_eq_true, decide_eq_true_eq]
    omega
  · rw [Int.toNat_natCast, UInt8.ofNat_toNat]

theorem setting?_threshold (n : Literal) :
    Document.setting? ("threshold", .number n) = n.fromDocument?.map .threshold := by
  rw [Document.setting?, Toml.assignment?, Literal.fromDocument?]
  change (n.scalar?.map _).bind _ = _
  cases n.scalar? with
  | none => rfl
  | some x =>
      cases x <;> rfl

theorem exists_mapM_plainLines (c : Choice) :
    ∃ settings, c.plainLines.mapM Document.setting? = some settings ∧
      settings.foldl Document.set .empty = c.document none := by
  obtain ⟨verbosity, log, logFile, saveFiles, benchmark, threshold, workDir, cache, cacheDir⟩ := c
  rw [plainLines, List.mapM_append, List.mapM_cons, setting?_verbose]
  cases log <;> cases logFile <;> cases workDir <;> cases cacheDir <;> exact ⟨_, rfl, rfl⟩

/-- The document that a choice is spelled in, if there is nothing wrong with the threshold. -/
theorem parse?_lines (c : Choice) :
    Document.parse? (Toml.document c.lines) =
      (c.threshold.mapM Literal.fromDocument?).map c.document := by
  obtain ⟨settings, hsettings, hdocument⟩ := c.exists_mapM_plainLines
  rw [Document.parse?_document c.isBareKey_lines c.nodup_lines, lines, List.mapM_append, hsettings]
  cases c.threshold with
  | none => simp [given, hdocument]
  | some n =>
      simp only [given, Option.map_some, Option.toList_some, List.mapM_cons, List.mapM_nil,
        setting?_threshold, Option.mapM_some]
      cases n.fromDocument? with
      | none => rfl
      | some x => simp [List.foldl_append, hdocument, Document.set, document]

/-- The settings of a choice that is spelled in a document. -/
theorem ofDocument_eq_ok_iff {c : Choice} {lines : List (String × Toml.Value)}
    (hlines : lines.Perm c.lines) {home : Option String} {s : Settings} :
    ofDocument home (Toml.document lines) = .ok s ↔
      ∃ threshold storeRoot, c.threshold.mapM Literal.fromDocument? = some threshold ∧
        storeRootIf c.cache home c.cacheDir = .ok storeRoot ∧
        s =
          { log := ⟨c.verbosity, c.log, c.logFile⟩
            saveIntermediates := c.saveFiles
            benchmark := c.benchmark
            policy := (threshold.map Policy.below).getD .always
            workDir := c.workDir
            storeRoot } := by
  have hparse : Document.parse? (Toml.document lines) =
      (c.threshold.mapM Literal.fromDocument?).map c.document := by
    rw [← parse?_lines,
      Document.parse?_document_of_perm hlines.symm c.isBareKey_lines c.nodup_lines]
  rw [ofDocument, hparse]
  cases c.threshold.mapM Literal.fromDocument? with
  | none => simp
  | some threshold =>
      rw [Option.map_some]
      change ((storeRootIf c.cache home c.cacheDir).map _).mapError _ = _ ↔ _
      cases storeRootIf c.cache home c.cacheDir with
      | error e => simp [Except.map, Except.mapError]
      | ok storeRoot => simp [Except.map, Except.mapError, eq_comm, document]

/-! ## Where the two agree -/

theorem nonEmpty_eq_self_iff (x : Option String) : nonEmpty x = x ↔ x ≠ some "" := by
  cases x with
  | none => simp [nonEmpty]
  | some s => simp [nonEmpty, Option.filter_some]

theorem filter_not_isBlankText_eq_self_iff (x : Option String) :
    x.filter (!Text.isBlankText ·) = x ↔ ∀ s, x = some s → Text.isBlankText s = false := by
  cases x with
  | none => simp
  | some s => simp [Option.filter_some]

theorem isComponent_storeDirName : Path.IsComponent storeDirName :=
  ⟨by decide, by decide, by decide⟩

/-- When the two store roots are the same. -/
theorem storeRootIf_nonEmpty_iff (cache : Bool) (home custom : Option String) :
    (∃ root, storeRootIf cache home (nonEmpty custom) = .ok root ∧
        storeRootIf cache home custom = .ok root) ↔
      (cache = true → custom ≠ some "" ∧ (custom = none → home ≠ none)) := by
  cases cache with
  | false => exact iff_of_true ⟨none, rfl, rfl⟩ (by rintro ⟨⟩)
  | true =>
      cases custom with
      | none =>
          cases home with
          | none => exact iff_of_false (by rintro ⟨root, ⟨⟩, -⟩) fun h => (h rfl).2 rfl rfl
          | some home => exact iff_of_true ⟨_, rfl, rfl⟩ fun _ => ⟨by simp, by simp⟩
      | some dir =>
          by_cases hdir : dir = ""
          · -- The variable's store is below the home directory, the document's has no name.
            subst hdir
            refine iff_of_false ?_ fun h => (h rfl).1 rfl
            rintro ⟨root, hvariable, hdocument⟩
            cases home with
            | none => cases hvariable
            | some home =>
                have hjoin := hvariable.trans hdocument.symm
                simp only [storeRootIf, if_true, storeRootOr, nonEmpty, Option.filter_some,
                  Except.map, Except.ok.injEq, Option.some.injEq, bne_self_eq_false,
                  Bool.false_eq_true, if_false] at hjoin
                exact Path.join_ne_empty isComponent_storeDirName home hjoin
          · have hsome : some dir ≠ some "" := fun h => hdir (Option.some.inj h)
            rw [(nonEmpty_eq_self_iff _).2 hsome]
            exact iff_of_true ⟨_, rfl, rfl⟩ fun _ => ⟨hsome, by simp⟩

theorem policy_same_iff (c : Choice) :
    (∃ threshold, c.threshold.mapM Literal.fromDocument? = some threshold ∧
        c.policy.same ((threshold.map Policy.below).getD .always) = true) ↔
      ∀ n, c.threshold = some n → n.Fits := by
  rw [policy]
  cases c.threshold with
  | none => simp [Policy.same]
  | some n =>
      simp only [Option.mapM_some, Option.some.injEq, forall_eq', ← n.fromVariable_same_iff]
      cases n.fromDocument? with
      | none => simp
      | some x => simp [Policy.same]

/-- A choice whose texts a variable keeps and whose threshold a document takes. -/
structure Plain (c : Choice) : Prop where
  log : ∀ s, c.log = some s → Text.isBlankText s = false
  logFile : c.logFile ≠ some ""
  workDir : c.workDir ≠ some ""
  cacheDir : c.cache = true → c.cacheDir ≠ some ""
  threshold : ∀ n, c.threshold = some n → n.Fits

end Choice

/-- **Variables and a document agree on the plain choices.**  The lines of the document may stand in
any order, and a choice that has the store on needs a place for it, by name or below the home
directory. -/
theorem spelled_alike_iff {c : Choice} {env : Environment} {lines : List (String × Toml.Value)}
    (henv : c.SpelledBy env) (hlines : lines.Perm c.lines) (home : Option String) :
    (∃ s t, (ofEnvironment home env).1 = .ok s ∧ ofDocument home (Toml.document lines) = .ok t ∧
        s.Same t) ↔
      c.Plain ∧ (c.cache = true → c.cacheDir = none → home ≠ none) := by
  rw [Choice.ofEnvironment_of_spelledBy henv]
  constructor
  · rintro ⟨s, t, hs, ht, hsame⟩
    obtain ⟨threshold, root, hthreshold, hroot, rfl⟩ := (Choice.ofDocument_eq_ok_iff hlines).1 ht
    cases hvariable : storeRootIf c.cache home (Choice.nonEmpty c.cacheDir) with
    | error e =>
        rw [hvariable] at hs
        cases hs
    | ok root' =>
        rw [hvariable] at hs
        cases hs
        obtain rfl : root' = root := hsame.storeRoot
        have hstore := (Choice.storeRootIf_nonEmpty_iff ..).1 ⟨root', hvariable, hroot⟩
        have hlog := LogSettings.mk.inj hsame.log
        have hplain : c.Plain :=
          { log := (Choice.filter_not_isBlankText_eq_self_iff _).1 hlog.2.1
            logFile := (Choice.nonEmpty_eq_self_iff _).1 hlog.2.2
            workDir := (Choice.nonEmpty_eq_self_iff _).1 hsame.workDir
            cacheDir := fun hcache => (hstore hcache).1
            threshold := c.policy_same_iff.1 ⟨threshold, hthreshold, hsame.policy⟩ }
        exact ⟨hplain, fun hcache => (hstore hcache).2⟩
  · rintro ⟨hplain, hhome⟩
    obtain ⟨threshold, hthreshold, hpolicy⟩ := c.policy_same_iff.2 hplain.threshold
    obtain ⟨root, hvariable, hroot⟩ := (Choice.storeRootIf_nonEmpty_iff ..).2 fun hcache =>
      ⟨hplain.cacheDir hcache, hhome hcache⟩
    refine ⟨_, _, by rw [hvariable]; rfl,
      (Choice.ofDocument_eq_ok_iff hlines).2 ⟨threshold, root, hthreshold, hroot, rfl⟩, ?_⟩
    exact
      { log := by
          rw [(Choice.filter_not_isBlankText_eq_self_iff _).2 hplain.log,
            (Choice.nonEmpty_eq_self_iff _).2 hplain.logFile]
        saveIntermediates := rfl
        benchmark := rfl
        policy := hpolicy
        workDir := (Choice.nonEmpty_eq_self_iff _).2 hplain.workDir
        storeRoot := rfl }

/-- A choice with the store on, a text to escape and a threshold of a quarter. -/
def Choice.sample : Choice where
  verbosity := 3
  log := some "engine=debug"
  logFile := some "the \"log\".txt"
  saveFiles := true
  benchmark := false
  threshold := some ⟨.none, .number ⟨['0'], by decide, List.all_eq_true.1 (by decide)⟩ (.inl rfl)
    (some ⟨['2', '5'], by decide, List.all_eq_true.1 (by decide)⟩) none⟩
  workDir := none
  cache := true
  cacheDir := some "store"

def Choice.sampleVariables : Environment := fun name =>
  [("DOPING_VERBOSE", "3"), ("DOPING_LOG", "engine=debug"), ("DOPING_LOG_FILE", "the \"log\".txt"),
    ("DOPING_SAVE_FILES", "yes"), ("DOPING_BENCHMARK", "off"), ("DOPING_THRESHOLD", "0.25"),
    ("DOPING_CACHE", "1"), ("DOPING_CACHE_DIR", "store")].lookup name

theorem spelled_alike_iff_sample :
    Choice.sample.SpelledBy Choice.sampleVariables ∧
      ∃ s t, (ofEnvironment none Choice.sampleVariables).1 = .ok s ∧
        ofDocument none (Toml.document Choice.sample.lines.reverse) = .ok t ∧ s.Same t := by
  have henv : Choice.sample.SpelledBy Choice.sampleVariables :=
    { verbosity := by decide
      log := by decide
      logFile := by decide
      saveFiles := .on (by decide)
      benchmark := .off (by decide)
      threshold := by decide
      workDir := by decide
      cache := .on (by decide)
      cacheDir := by decide }
  have hplain : Choice.sample.Plain :=
    { log := by
        rintro s ⟨⟩
        decide
      logFile := by decide
      workDir := by decide
      cacheDir := by decide
      threshold := by
        rintro n ⟨⟩
        exact ⟨by decide +kernel, by rintro i ⟨⟩⟩ }
  exact ⟨henv, (spelled_alike_iff henv (List.reverse_perm _) none).2 ⟨hplain, by rintro - ⟨⟩⟩⟩

/-- A document keeps an empty text and a threshold that is not finite; a variable does not. -/
theorem spelled_differently :
    (∃ s t, (ofEnvironment none fun name => [("DOPING_LOG_FILE", "")].lookup name).1 = .ok s ∧
        ofDocument none "log_file = \"\"\n" = .ok t ∧ s.log.file = none ∧ t.log.file = some "") ∧
      ∃ s t, (ofEnvironment none fun name => [("DOPING_THRESHOLD", "inf")].lookup name).1 = .ok s ∧
        ofDocument none "threshold = inf\n" = .ok t ∧ s.policy = .below Policy.defaultThreshold ∧
        t.policy = .below (Float.ofBits Binary64.infinity) :=
  ⟨⟨_, _, rfl, rfl, rfl, rfl⟩, ⟨_, _, rfl, rfl, rfl, rfl⟩⟩

end Settings
end Loopsmith
