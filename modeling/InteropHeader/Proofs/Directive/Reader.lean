import InteropHeader.Proofs.Directive.Scan

/-!
# Reading a text with its conditionals

Input:
  the lines of a text, which conditions hold, and what is done with a line that
  is read.

Algorithm:
  a stack holds one branch for each conditional that is open.  A line that is no
  conditional directive is read if all these branches are taken, and skipped if
  not.  The first branch of a conditional whose condition holds is taken; inside
  a skipped part no condition is asked.  Which conditions hold may depend on what
  has been read before.

Results:
  * `run_of_active`, `run_of_skipped`: a balanced text leaves the branches around
    it alone, and it is read as it would be by itself or skipped as a whole;
  * `keptOf_append`, `kept_append`: under a fixed truth of all conditions lines are
    kept part by part, and so are texts;
  * `forall_mem_keptOf`: a kept line is one of the lines.
-/

namespace InteropHeader

/-- How a branch of a conditional is treated. -/
inductive Branch
  | taken
  /-- It is skipped, and a later branch may be taken. -/
  | waiting
  /-- It is skipped, and so are all later branches. -/
  | done
  deriving DecidableEq, Repr

namespace Branch

/-- The first branch of a conditional. -/
def first (active holds : Bool) : Branch :=
  if active then (if holds then taken else waiting) else done

/-- The branch behind a branch of the same conditional. -/
def next (holds : Bool) : Branch → Branch
  | taken => done
  | waiting => if holds then taken else waiting
  | done => done

end Branch

/-- Whether a line inside the given branches is read. -/
def isActive (branches : List Branch) : Bool :=
  branches.all (· == .taken)

/-- What reading does with conditions and lines. -/
structure Reader (σ : Type) where
  holds : σ → Condition → Bool
  read : σ → String → σ

/-- How far reading has got. -/
structure Reading (σ : Type) where
  /-- The branches of the open conditionals, the innermost first. -/
  branches : List Branch
  state : σ

namespace Reader

variable {σ : Type}

/-- The branches behind a conditional directive. -/
def follow (reader : Reader σ) (state : σ) (branches : List Branch) :
    Directive → List Branch
  | .opening condition =>
      .first (isActive branches) (reader.holds state condition) :: branches
  | .alternative condition =>
      match branches with
      | [] => []
      | branch :: outer => branch.next (reader.holds state condition) :: outer
  | .otherwise =>
      match branches with
      | [] => []
      | branch :: outer => branch.next true :: outer
  | .closing => branches.tail

/-- Reads or skips one line. -/
def step (reader : Reader σ) (reading : Reading σ) (line : String) : Reading σ :=
  match Directive.ofLine? line with
  | some directive =>
      ⟨reader.follow reading.state reading.branches directive, reading.state⟩
  | none =>
      if isActive reading.branches then
        ⟨reading.branches, reader.read reading.state line⟩
      else
        reading

/-- Reads or skips lines in order. -/
def run (reader : Reader σ) (reading : Reading σ) (lines : List String) : Reading σ :=
  lines.foldl reader.step reading

@[simp] theorem run_nil (reader : Reader σ) (reading : Reading σ) :
    reader.run reading [] = reading :=
  rfl

@[simp] theorem run_cons
    (reader : Reader σ) (reading : Reading σ) (line : String) (rest : List String) :
    reader.run reading (line :: rest) = reader.run (reader.step reading line) rest :=
  rfl

theorem run_append
    (reader : Reader σ) (reading : Reading σ) (first second : List String) :
    reader.run reading (first ++ second) = reader.run (reader.run reading first) second :=
  List.foldl_append

/-- What reading a line keeps, reading lines keeps. -/
theorem run_of_read
    {reader : Reader σ} {P : String → Prop} {I : σ → Prop}
    (hread : ∀ state line, P line → I state → I (reader.read state line))
    {lines : List String} (hlines : ∀ line ∈ lines, P line)
    {reading : Reading σ} (hstart : I reading.state) :
    I (reader.run reading lines).state := by
  induction lines generalizing reading with
  | nil =>
      exact hstart
  | cons line rest ih =>
      refine ih (fun other hother => hlines other (by simp [hother])) ?_
      unfold step
      split
      · exact hstart
      · split
        · exact hread _ _ (hlines line (by simp)) hstart
        · exact hstart

section Frame

variable (reader : Reader σ) (state : σ)

theorem isActive_append (inner outer : List Branch) :
    isActive (inner ++ outer) = (isActive inner && isActive outer) := by
  simp [isActive]

/-- A directive that belongs to the inner conditionals leaves the outer ones
alone; where these are active it does what it would do without them. -/
theorem follow_append
    (inner outer : List Branch) {directive : Directive} {depth : Nat}
    (h : directive.depthAfter inner.length = some depth) :
    ∃ left, reader.follow state (inner ++ outer) directive = left ++ outer ∧
      left.length = depth ∧
      (isActive outer = true → reader.follow state inner directive = left) := by
  cases directive with
  | opening condition =>
      simp only [Directive.depthAfter, Option.some.injEq] at h
      refine ⟨_ :: inner, rfl, by simp [h], ?_⟩
      intro houter
      simp [follow, isActive_append, houter]
  | alternative condition =>
      cases inner with
      | nil => simp [Directive.depthAfter] at h
      | cons branch others =>
          exact ⟨_ :: others, rfl, by simpa [Directive.depthAfter] using h, fun _ => rfl⟩
  | otherwise =>
      cases inner with
      | nil => simp [Directive.depthAfter] at h
      | cons branch others =>
          exact ⟨_ :: others, rfl, by simpa [Directive.depthAfter] using h, fun _ => rfl⟩
  | closing =>
      cases inner with
      | nil => simp [Directive.depthAfter] at h
      | cons branch others =>
          exact ⟨others, rfl, by simpa [Directive.depthAfter] using h, fun _ => rfl⟩

theorem step_append
    (inner outer : List Branch) {line : String} {depth : Nat}
    (h : lineDepth inner.length line = some depth) :
    ∃ left next, reader.step ⟨inner ++ outer, state⟩ line = ⟨left ++ outer, next⟩ ∧
      left.length = depth ∧
      (isActive outer = true → reader.step ⟨inner, state⟩ line = ⟨left, next⟩) ∧
      (isActive outer = false → next = state) := by
  unfold lineDepth at h
  unfold step
  cases hline : Directive.ofLine? line with
  | some directive =>
      rw [hline] at h
      obtain ⟨left, hfollow, hlength, hactive⟩ :=
        follow_append reader state inner outer h
      refine ⟨left, state, by simp [hfollow], hlength, ?_, fun _ => rfl⟩
      intro houter
      simp [hactive houter]
  | none =>
      rw [hline] at h
      cases h
      by_cases hread : isActive (inner ++ outer)
      · -- the line is read, so all branches are taken
        have hboth := hread
        rw [isActive_append, Bool.and_eq_true] at hboth
        refine ⟨inner, reader.read state line, by simp [hread], rfl, ?_, ?_⟩
        · intro _
          simp [hboth.1]
        · intro houter
          rw [hboth.2] at houter
          cases houter
      · refine ⟨inner, state, by simp [hread], rfl, ?_, fun _ => rfl⟩
        intro houter
        rw [isActive_append, houter, Bool.and_true] at hread
        simp [hread]

/-- Lines that never leave the inner conditionals are read as they would be by
themselves, or skipped. -/
theorem run_append_outer
    (inner outer : List Branch) {lines : List String} {depth : Nat}
    (h : depthAfter inner.length lines = some depth) :
    ∃ left next, reader.run ⟨inner ++ outer, state⟩ lines = ⟨left ++ outer, next⟩ ∧
      left.length = depth ∧
      (isActive outer = true → reader.run ⟨inner, state⟩ lines = ⟨left, next⟩) ∧
      (isActive outer = false → next = state) := by
  induction lines generalizing inner state with
  | nil =>
      cases h
      exact ⟨inner, state, rfl, rfl, fun _ => rfl, fun _ => rfl⟩
  | cons line rest ih =>
      rw [depthAfter_cons, Option.bind_eq_some_iff] at h
      obtain ⟨middle, hmiddle, hrest⟩ := h
      obtain ⟨left, next, hstep, hlength, hactive, hskipped⟩ :=
        step_append reader state inner outer hmiddle
      rw [← hlength] at hrest
      obtain ⟨left', next', hrun, hlength', hactive', hskipped'⟩ :=
        ih next left hrest
      refine ⟨left', next', by rw [run_cons, hstep, hrun], hlength', ?_, ?_⟩
      · intro houter
        rw [run_cons, hactive houter, hactive' houter]
      · intro houter
        rw [hskipped' houter, hskipped houter]

/-- Lines that return to the depth they began at leave the branches around them
alone. -/
theorem run_of_active
    {outer : List Branch} (houter : isActive outer = true)
    {lines : List String} (h : depthAfter 0 lines = some 0) :
    reader.run ⟨outer, state⟩ lines =
      ⟨outer, (reader.run ⟨[], state⟩ lines).state⟩ := by
  obtain ⟨left, next, hrun, hlength, hactive, _⟩ :=
    run_append_outer reader state [] outer h
  rw [List.length_eq_zero_iff] at hlength
  subst hlength
  rw [hactive houter]
  exact hrun

/-- Where they are skipped they change nothing. -/
theorem run_of_skipped
    {outer : List Branch} (houter : isActive outer = false)
    {lines : List String} (h : depthAfter 0 lines = some 0) :
    reader.run ⟨outer, state⟩ lines = ⟨outer, state⟩ := by
  obtain ⟨left, next, hrun, hlength, _, hskipped⟩ :=
    run_append_outer reader state [] outer h
  rw [List.length_eq_zero_iff] at hlength
  subst hlength
  rw [hskipped houter] at hrun
  exact hrun

end Frame

section Conditionals

variable {reader : Reader σ} {state : σ} {branches : List Branch} {condition : Condition}

/-- A line that is no conditional directive is read. -/
theorem step_plain {line : String} (hline : Directive.ofLine? line = none) :
    reader.step ⟨[], state⟩ line = ⟨[], reader.read state line⟩ := by
  simp [step, hline, isActive]

theorem step_opening
    {line : String} (hline : Directive.ofLine? line = some (.opening condition))
    (hactive : isActive branches = true) :
    reader.step ⟨branches, state⟩ line =
      ⟨(if reader.holds state condition then .taken else .waiting) :: branches, state⟩ := by
  simp [step, hline, follow, hactive, Branch.first]

theorem step_otherwise
    {line : String} (hline : Directive.ofLine? line = some .otherwise) (branch : Branch) :
    reader.step ⟨branch :: branches, state⟩ line =
      ⟨branch.next true :: branches, state⟩ := by
  simp [step, hline, follow]

theorem step_closing
    {line : String} (hline : Directive.ofLine? line = some .closing) (branch : Branch) :
    reader.step ⟨branch :: branches, state⟩ line = ⟨branches, state⟩ := by
  simp [step, hline, follow]

variable {opening middle closing : String} {body alternative : List String}

/-- A conditional with one branch is read if its condition holds. -/
theorem run_onlyIf
    (hopening : Directive.ofLine? opening = some (.opening condition))
    (hclosing : Directive.ofLine? closing = some .closing)
    (hbody : depthAfter 0 body = some 0) (hactive : isActive branches = true) :
    reader.run ⟨branches, state⟩ (opening :: (body ++ [closing])) =
      ⟨branches, if reader.holds state condition then (reader.run ⟨[], state⟩ body).state
        else state⟩ := by
  rw [run_cons, step_opening hopening hactive, run_append]
  by_cases hholds : reader.holds state condition
  · rw [if_pos hholds, if_pos hholds, run_of_active _ _ (by simpa [isActive] using hactive)
      hbody, run_cons, step_closing hclosing, run_nil]
  · rw [if_neg hholds, if_neg hholds, run_of_skipped _ _ (by simp [isActive]) hbody, run_cons,
      step_closing hclosing, run_nil]

/-- Of a conditional with two branches the one that its condition tells is read. -/
theorem run_ifElse
    (hopening : Directive.ofLine? opening = some (.opening condition))
    (hmiddle : Directive.ofLine? middle = some .otherwise)
    (hclosing : Directive.ofLine? closing = some .closing)
    (hbody : depthAfter 0 body = some 0) (halternative : depthAfter 0 alternative = some 0)
    (hactive : isActive branches = true) :
    reader.run ⟨branches, state⟩
        (opening :: (body ++ middle :: (alternative ++ [closing]))) =
      ⟨branches, if reader.holds state condition then (reader.run ⟨[], state⟩ body).state
        else (reader.run ⟨[], state⟩ alternative).state⟩ := by
  rw [run_cons, step_opening hopening hactive, run_append]
  by_cases hholds : reader.holds state condition
  · -- the alternative is behind a taken branch, and so it is skipped
    rw [if_pos hholds, if_pos hholds, run_of_active _ _ (by simpa [isActive] using hactive)
      hbody, run_cons, step_otherwise hmiddle, run_append,
      run_of_skipped _ _ (by simp [isActive, Branch.next]) halternative, run_cons,
      step_closing hclosing, run_nil]
  · rw [if_neg hholds, if_neg hholds, run_of_skipped _ _ (by simp [isActive]) hbody, run_cons,
      step_otherwise hmiddle, run_append,
      run_of_active _ _ (by simpa [isActive, Branch.next] using hactive) halternative, run_cons,
      step_closing hclosing, run_nil]

/-- Lines that by themselves do what a function says. -/
structure Does (reader : Reader σ) (lines : List String) (f : σ → σ) : Prop where
  newline_notMem : ∀ line ∈ lines, '\n' ∉ line.toList
  depth_eq : depthAfter 0 lines = some 0
  run_eq : ∀ state, reader.run ⟨[], state⟩ lines = ⟨[], f state⟩

namespace Does

variable {f g : σ → σ}

theorem nil : reader.Does [] id where
  newline_notMem := by simp
  depth_eq := rfl
  run_eq _ := rfl

theorem line
    {line : String} (hnewline : '\n' ∉ line.toList) (hline : Directive.ofLine? line = none) :
    reader.Does [line] fun state => reader.read state line where
  newline_notMem := by simpa using hnewline
  depth_eq := by
    rw [depthAfter_cons, lineDepth_of_plain hline, Option.bind_some, depthAfter_nil]
  run_eq state := by
    rw [run_cons, step_plain hline, run_nil]

theorem append
    {first second : List String} (hfirst : reader.Does first f)
    (hsecond : reader.Does second g) :
    reader.Does (first ++ second) fun state => g (f state) where
  newline_notMem := List.forall_mem_append.2 ⟨hfirst.newline_notMem, hsecond.newline_notMem⟩
  depth_eq := by
    rw [depthAfter_append, hfirst.depth_eq, Option.bind_some, hsecond.depth_eq]
  run_eq state := by
    rw [run_append, hfirst.run_eq, hsecond.run_eq]

theorem onlyIf
    (hopening : Directive.ofLine? opening = some (.opening condition))
    (hclosing : Directive.ofLine? closing = some .closing)
    (hnewline : '\n' ∉ opening.toList ∧ '\n' ∉ closing.toList)
    (hbody : reader.Does body f) :
    reader.Does (opening :: (body ++ [closing])) fun state =>
      if reader.holds state condition then f state else state where
  newline_notMem := by
    simpa [hnewline, or_imp, forall_and] using hbody.newline_notMem
  depth_eq := by
    have hinner : depthAfter 1 body = some 1 := depthAfter_add hbody.depth_eq 1
    simp [depthAfter_cons, depthAfter_append, lineDepth, hopening, hclosing, hinner,
      Directive.depthBehind, Directive.depthAfter]
  run_eq state := by
    rw [run_onlyIf hopening hclosing hbody.depth_eq rfl, hbody.run_eq]

theorem ifElse
    (hopening : Directive.ofLine? opening = some (.opening condition))
    (hmiddle : Directive.ofLine? middle = some .otherwise)
    (hclosing : Directive.ofLine? closing = some .closing)
    (hnewline : '\n' ∉ opening.toList ∧ '\n' ∉ middle.toList ∧ '\n' ∉ closing.toList)
    (hbody : reader.Does body f) (halternative : reader.Does alternative g) :
    reader.Does (opening :: (body ++ middle :: (alternative ++ [closing]))) fun state =>
      if reader.holds state condition then f state else g state where
  newline_notMem := by
    simpa [hnewline, or_imp, forall_and] using
      And.intro hbody.newline_notMem halternative.newline_notMem
  depth_eq := by
    have hinner : depthAfter 1 body = some 1 := depthAfter_add hbody.depth_eq 1
    have hother : depthAfter 1 alternative = some 1 := depthAfter_add halternative.depth_eq 1
    simp [depthAfter_cons, depthAfter_append, lineDepth, hopening, hmiddle, hclosing, hinner,
      hother, Directive.depthBehind, Directive.depthAfter]
  run_eq state := by
    rw [run_ifElse hopening hmiddle hclosing hbody.depth_eq halternative.depth_eq rfl,
      hbody.run_eq, halternative.run_eq]

end Does

end Conditionals

end Reader

/-- A fixed truth of all conditions. -/
structure Truth where
  test : String → Bool
  isDefined : String → Bool

namespace Truth

/-- Whether a condition holds. -/
def holds (truth : Truth) : Condition → Bool
  | .test text => truth.test text
  | .defined name => truth.isDefined name
  | .undefined name => !truth.isDefined name

/-- The reader that keeps every line it reads. -/
def keeper (truth : Truth) : Reader (List String) where
  holds _ := truth.holds
  read kept line := kept ++ [line]

/-- The lines that are kept. -/
def keptOf (truth : Truth) (lines : List String) : List String :=
  (truth.keeper.run ⟨[], []⟩ lines).state

/-- The lines of a text that are kept. -/
def kept (truth : Truth) (text : String) : List String :=
  truth.keptOf (Text.lines text)

variable {truth : Truth}

/-- What has been kept before plays no part. -/
theorem run_keeper_append
    (truth : Truth) (branches : List Branch) (earlier kept lines : List String) :
    truth.keeper.run ⟨branches, earlier ++ kept⟩ lines =
      ⟨(truth.keeper.run ⟨branches, kept⟩ lines).branches,
        earlier ++ (truth.keeper.run ⟨branches, kept⟩ lines).state⟩ := by
  induction lines generalizing branches kept with
  | nil =>
      rfl
  | cons line rest ih =>
      have hstep : truth.keeper.step ⟨branches, earlier ++ kept⟩ line =
          ⟨(truth.keeper.step ⟨branches, kept⟩ line).branches,
            earlier ++ (truth.keeper.step ⟨branches, kept⟩ line).state⟩ := by
        unfold Reader.step
        cases Directive.ofLine? line with
        | some directive =>
            cases directive <;> rfl
        | none =>
            by_cases hactive : isActive branches
            · simp [hactive, keeper]
            · simp [hactive]
      rw [Reader.run_cons, hstep, ih, Reader.run_cons]

theorem run_keeper_of_active
    {branches : List Branch} (hactive : isActive branches = true)
    {lines : List String} (h : depthAfter 0 lines = some 0) (earlier : List String) :
    truth.keeper.run ⟨branches, earlier⟩ lines =
      ⟨branches, earlier ++ truth.keptOf lines⟩ := by
  have happend := run_keeper_append truth [] earlier [] lines
  rw [List.append_nil] at happend
  rw [Reader.run_of_active _ _ hactive h, happend]
  rfl

/-- Plain lines are all kept. -/
theorem keptOf_plain {content : List String} (h : PlainLines content) :
    truth.keptOf content = content := by
  have hrun : ∀ earlier,
      truth.keeper.run ⟨[], earlier⟩ content = ⟨[], earlier ++ content⟩ := by
    induction content with
    | nil =>
        intro earlier
        simp
    | cons line rest ih =>
        intro earlier
        have hstep : truth.keeper.step ⟨[], earlier⟩ line = ⟨[], earlier ++ [line]⟩ := by
          rw [Reader.step, (h line (by simp)).2]
          rfl
        rw [Reader.run_cons, hstep, ih fun other hother => h other (by simp [hother])]
        simp
  rw [keptOf, hrun, List.nil_append]

/-- Of a text without directives every line is kept. -/
theorem kept_of_directiveFree {text : String} (h : DirectiveFree text) :
    truth.kept text = Text.lines text :=
  keptOf_plain (.of_directiveFree h)

theorem forall_mem_read_keeper
    {P : String → Prop} (kept : List String) (line : String) (hline : P line)
    (hkept : ∀ other ∈ kept, P other) :
    ∀ other ∈ truth.keeper.read kept line, P other := by
  intro other hother
  rcases List.mem_append.1 hother with hbefore | hlast
  · exact hkept other hbefore
  · rwa [List.mem_singleton.1 hlast]

/-- A kept line is one of the lines. -/
theorem forall_mem_keptOf
    {P : String → Prop} {lines : List String} (h : ∀ line ∈ lines, P line) :
    ∀ line ∈ truth.keptOf lines, P line :=
  Reader.run_of_read forall_mem_read_keeper h (by simp)

/-- A conditional with plain lines is kept if its condition holds. -/
theorem keptOf_onlyIf
    {condition : Condition} {opening closing : String} {body : List String}
    (hopening : Directive.ofLine? opening = some (.opening condition))
    (hclosing : Directive.ofLine? closing = some .closing) (hbody : PlainLines body) :
    truth.keptOf (opening :: (body ++ [closing])) =
      if truth.holds condition then body else [] := by
  have hdepth : depthAfter 0 body = some 0 :=
    (LeadsTo.of_plain hbody).depth_eq
  rw [keptOf, Reader.run_onlyIf hopening hclosing hdepth rfl]
  show (if truth.holds condition then truth.keptOf body else []) = _
  rw [keptOf_plain hbody]

/-- Lines are kept part by part. -/
theorem keptOf_append
    {first : List String} (h : depthAfter 0 first = some 0) (second : List String) :
    truth.keptOf (first ++ second) = truth.keptOf first ++ truth.keptOf second := by
  have happend := run_keeper_append truth [] (truth.keptOf first) [] second
  rw [List.append_nil] at happend
  have hrun : truth.keeper.run ⟨[], []⟩ first = ⟨[], truth.keptOf first⟩ :=
    run_keeper_of_active rfl h []
  rw [keptOf, Reader.run_append, hrun, happend]
  rfl

/-- Lines without line feeds that end each conditional they begin, and what is kept of them. -/
structure Keeps (truth : Truth) (lines kept : List String) : Prop where
  leadsTo : LeadsTo 0 0 lines
  keptOf_eq : truth.keptOf lines = kept

namespace Keeps

theorem of_plain {lines : List String} (h : PlainLines lines) : truth.Keeps lines lines :=
  ⟨.of_plain h, keptOf_plain h⟩

theorem append
    {first second kept others : List String} (hfirst : truth.Keeps first kept)
    (hsecond : truth.Keeps second others) :
    truth.Keeps (first ++ second) (kept ++ others) where
  leadsTo := hfirst.leadsTo.append hsecond.leadsTo
  keptOf_eq := by
    rw [keptOf_append hfirst.leadsTo.depth_eq, hfirst.keptOf_eq, hsecond.keptOf_eq]

theorem onlyIf
    {condition : Condition} {opening closing : String} {body : List String}
    (hopening : Directive.ofLine? opening = some (.opening condition))
    (hclosing : Directive.ofLine? closing = some .closing)
    (hnewline : '\n' ∉ opening.toList ∧ '\n' ∉ closing.toList) (hbody : PlainLines body) :
    truth.Keeps (opening :: (body ++ [closing])) (if truth.holds condition then body else [])
    where
  leadsTo :=
    .cons hnewline.1 (by rw [lineDepth, hopening]; rfl)
      ((LeadsTo.of_plain hbody).append
        (.cons hnewline.2 (by rw [lineDepth, hclosing]; rfl) .nil))
  keptOf_eq := keptOf_onlyIf hopening hclosing hbody

end Keeps

end Truth

end InteropHeader
