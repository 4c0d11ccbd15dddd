import CodeEntities.Parsing.Session

namespace CodeEntities

namespace LanguageMap

variable {α : Type} {m : LanguageMap α} {k l : Language} {a : α}

@[simp] theorem empty_apply (l : Language) : (empty : LanguageMap α) l = none := rfl

@[simp] theorem insert_same : m.insert l a l = some a := if_pos rfl

@[simp] theorem insert_other (different : k ≠ l) : m.insert l a k = m k := if_neg different

end LanguageMap

def Grammar.settled (language : Language) : Grammar :=
  match ParserHandle.load language with
  | .ok _ => .loaded
  | .error reason => .unavailable reason

theorem Grammar.settled_ne_deferred (l : Language) : Grammar.settled l ≠ .deferred := by
  unfold settled
  split <;> exact nofun

theorem Grammar.settled_loaded {l : Language} :
    Grammar.settled l = .loaded ↔ l.hasGrammar = true := by
  unfold settled ParserHandle.load
  cases l.hasGrammar <;> simp

def ParserConfig.initialGrammar (c : ParserConfig) (language : Language) : Grammar :=
  if c.loadsEagerly language then .settled language else .deferred

namespace Session

variable {s : Session} {k l : Language} {ls : List Language}

-- There is a parser for a language exactly when its grammar is loaded.
def Balanced (s : Session) : Prop := ∀ l, (s.handles l).isSome ↔ s.grammars l = some .loaded

theorem load_rest (s : Session) (l : Language) :
    (s.load l).config = s.config ∧ (s.load l).isStarted = s.isStarted := by
  unfold load
  split <;> exact ⟨rfl, rfl⟩

theorem load_grammars (s : Session) (k l : Language) :
    (s.load l).grammars k = if k = l then some (.settled l) else s.grammars k := by
  unfold load Grammar.settled
  cases ParserHandle.load l with
  | ok handle => rfl
  | error reason => rfl

theorem load_balanced (balanced : s.Balanced) (fresh : s.grammars l ≠ some .loaded) :
    (s.load l).Balanced := by
  intro k
  by_cases same : k = l
  · subst same
    have absent := mt (balanced k).mp fresh
    unfold load
    split
    · simp
    · simpa using absent
  · unfold load
    split <;> simpa [same] using balanced k

theorem prepare_rest (s : Session) (l : Language) :
    (s.prepare l).config = s.config ∧ (s.prepare l).isStarted = s.isStarted := by
  unfold prepare
  split
  · exact load_rest s l
  · exact ⟨rfl, rfl⟩

theorem prepare_grammars (s : Session) (k l : Language) :
    (s.prepare l).grammars k =
      if k = l then some (s.config.initialGrammar l) else s.grammars k := by
  unfold prepare ParserConfig.initialGrammar
  split
  · exact load_grammars s k l
  · rfl

theorem prepare_balanced (balanced : s.Balanced) (fresh : s.grammars l = none) :
    (s.prepare l).Balanced := by
  unfold prepare
  split
  · exact load_balanced balanced (by simp [fresh])
  · intro k
    by_cases same : k = l
    · subst same
      simpa [fresh] using balanced k
    · simpa [same] using balanced k

theorem prepareAll_rest (ls : List Language) (s : Session) :
    (ls.foldl prepare s).config = s.config ∧ (ls.foldl prepare s).isStarted = s.isStarted := by
  induction ls generalizing s with
  | nil => exact ⟨rfl, rfl⟩
  | cons l ls ih =>
    obtain ⟨config, isStarted⟩ := ih (s.prepare l)
    exact ⟨config.trans (prepare_rest s l).1, isStarted.trans (prepare_rest s l).2⟩

theorem prepareAll_grammars (ls : List Language) (s : Session) (k : Language) :
    (ls.foldl prepare s).grammars k =
      if k ∈ ls then some (s.config.initialGrammar k) else s.grammars k := by
  induction ls generalizing s with
  | nil => simp
  | cons l ls ih =>
    rw [List.foldl_cons, ih, (prepare_rest s l).1, prepare_grammars]
    by_cases later : k ∈ ls
    · simp [later]
    · by_cases same : k = l <;> simp [later, same]

theorem prepareAll_balanced (distinct : ls.Nodup) (fresh : ∀ l ∈ ls, s.grammars l = none)
    (balanced : s.Balanced) : (ls.foldl prepare s).Balanced := by
  induction ls generalizing s with
  | nil => exact balanced
  | cons l ls ih =>
    obtain ⟨new, distinct⟩ := List.nodup_cons.mp distinct
    refine ih distinct ?_ (prepare_balanced balanced (fresh l (List.mem_cons_self ..)))
    intro k later
    have different : k ≠ l := fun same => new (same ▸ later)
    rw [prepare_grammars, if_neg different]
    exact fresh k (List.mem_cons_of_mem _ later)

theorem start_started (started : s.isStarted = true) : s.start = s := if_pos started

theorem start_isStarted (s : Session) : s.start.isStarted = true := by
  unfold start
  split
  · assumption
  · rfl

theorem start_config (s : Session) : s.start.config = s.config := by
  unfold start
  split
  · rfl
  · exact (prepareAll_rest _ _).1

theorem start_grammars (stopped : s.isStarted = false) (l : Language) :
    s.start.grammars l = some (s.config.initialGrammar l) := by
  unfold start
  rw [if_neg (by simp [stopped])]
  exact (prepareAll_grammars _ _ _).trans (if_pos (Language.mem_all l))

theorem start_balanced (stopped : s.isStarted = false) (empty : s.grammars = .empty)
    (balanced : s.Balanced) : s.start.Balanced := by
  unfold start
  rw [if_neg (by simp [stopped])]
  exact prepareAll_balanced (s := s) (by decide) (fun l _ => by rw [empty]; rfl) balanced

theorem require_rest (s : Session) (l : Language) :
    (s.require l).config = s.config ∧ (s.require l).isStarted = s.isStarted := by
  unfold require
  split
  · exact load_rest s l
  · exact ⟨rfl, rfl⟩

theorem require_grammars (s : Session) (k l : Language) :
    (s.require l).grammars k =
      if k = l ∧ s.grammars k = some .deferred then some (.settled k) else s.grammars k := by
  unfold require status?
  by_cases same : k = l
  · subst same
    split <;> simp_all [load_grammars]
  · split <;> simp [same, load_grammars]

theorem require_balanced (balanced : s.Balanced) (l : Language) : (s.require l).Balanced := by
  unfold require status?
  split
  · rename_i deferred
    exact load_balanced balanced (by simp [deferred])
  · exact balanced

theorem keep_balanced {handle : ParserHandle} {tree : Tree} (balanced : s.Balanced)
    (found : s.handles l = some handle) : (s.keep l handle tree).Balanced := by
  intro k
  by_cases same : k = l
  · subst same
    have loaded := (balanced k).mp (by simp [found])
    simp [keep, loaded]
  · simpa [keep, same] using balanced k

inductive ParseOutcome (s : Session) (engine : Engine) (l : Language) (source : String)
    (earlier : Option (Tree × List Text.Edit)) : Session × Except Fault Parsed → Prop where
  | stopped (stopped : s.isStarted = false) :
      ParseOutcome s engine l source earlier (s, .error .notStarted)
  | unavailable (started : s.isStarted = true) (unhandled : (s.require l).handles l = none) :
      ParseOutcome s engine l source earlier (s.require l, .error (.parserUnavailable l))
  | failed {handle} (started : s.isStarted = true)
      (found : (s.require l).handles l = some handle)
      (unparsed : engine l source earlier = none) :
      ParseOutcome s engine l source earlier (s.require l, .error (.parseFailure l))
  | parsed {handle tree} (started : s.isStarted = true)
      (found : (s.require l).handles l = some handle)
      (made : engine l source earlier = some tree) :
      ParseOutcome s engine l source earlier
        ((s.require l).keep l handle tree, .ok { tree, source, language := l })

theorem parseWith_outcome (s : Session) (engine : Engine) (l : Language) (source : String)
    (earlier : Option (Tree × List Text.Edit)) :
    ParseOutcome s engine l source earlier (s.parseWith engine l source earlier) := by
  unfold parseWith handle
  cases started : s.isStarted with
  | false => exact .stopped started
  | true =>
    cases found : (s.require l).handles l with
    | none => simpa [found] using ParseOutcome.unavailable started found
    | some handle =>
      cases made : engine l source earlier with
      | none => simpa [found] using ParseOutcome.failed started found made
      | some tree => simpa [found] using ParseOutcome.parsed started found made

theorem parseWith_answer {handle : ParserHandle} (started : s.isStarted = true)
    (found : (s.require l).handles l = some handle) (engine : Engine) (source : String)
    (earlier : Option (Tree × List Text.Edit)) :
    (s.parseWith engine l source earlier).2 =
      match engine l source earlier with
      | some tree => .ok { tree, source, language := l }
      | none => .error (.parseFailure l) := by
  have outcome := parseWith_outcome s engine l source earlier
  generalize s.parseWith engine l source earlier = result at outcome
  cases outcome with
  | stopped stopped =>
    rw [started] at stopped
    cases stopped
  | unavailable _ unhandled =>
    rw [found] at unhandled
    cases unhandled
  | failed _ _ unparsed => simp only [unparsed]
  | parsed _ _ made => simp only [made]

theorem parseFile_known {path : String} (known : Language.ofPath? path = some l) (s : Session)
    (engine : Engine) (source : String) :
    s.parseFile engine path source = s.parse engine l source := by
  unfold parseFile
  rw [known]

theorem parseFile_unknown {path : String} (unknown : Language.ofPath? path = none) (s : Session)
    (engine : Engine) (source : String) :
    s.parseFile engine path source = (s, .error (.unsupportedLanguage path)) := by
  unfold parseFile
  rw [unknown]

def EndsWithin (edits : List Text.Edit) (source : String) : Prop :=
  ∀ e ∈ edits, e.newEndByte ≤ source.utf8ByteSize

instance (edits : List Text.Edit) (source : String) : Decidable (EndsWithin edits source) :=
  inferInstanceAs (Decidable (∀ e ∈ edits, e.newEndByte ≤ source.utf8ByteSize))

theorem reparse_within {edits : List Text.Edit} {source : String}
    (within : EndsWithin edits source) (s : Session) (engine : Engine) (earlier : Tree)
    (l : Language) :
    s.reparse engine earlier source edits l =
      s.parseWith engine l source (some (earlier, edits)) := by
  have inside : (edits.find? fun e => source.utf8ByteSize < e.newEndByte) = none := by
    apply List.find?_eq_none.mpr
    intro e member
    simpa using within e member
  unfold reparse
  rw [inside]

-- The first edit that ends beyond the source is the one that is named.
theorem reparse_beyond {edits : List Text.Edit} {source : String}
    (beyond : ¬ EndsWithin edits source) (s : Session) (engine : Engine) (earlier : Tree)
    (l : Language) :
    ∃ before e rest, edits = before ++ e :: rest ∧ EndsWithin before source ∧
      source.utf8ByteSize < e.newEndByte ∧
      s.reparse engine earlier source edits l =
        (s, .error (.invalidEdit (.beyondNewSource e.newEndByte source.utf8ByteSize))) := by
  unfold reparse
  cases found : edits.find? fun e => source.utf8ByteSize < e.newEndByte with
  | none =>
    refine absurd ?_ beyond
    intro e member
    simpa using List.find?_eq_none.mp found e member
  | some e =>
    obtain ⟨longer, before, rest, split, within⟩ := List.find?_eq_some_iff_append.mp found
    refine ⟨before, e, rest, split, ?_, by simpa using longer, rfl⟩
    intro d member
    simpa using within d member

end Session

end CodeEntities
