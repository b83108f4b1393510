import NoiContest.Collection.Collect

/- What the choices of a collection rest on: the readings of the same run. -/
namespace NoiContest.Collection
open Pipeline Flow

abbrev Log := Trace Call Answer Raised

/- Where a run looks for the answers. -/
structure Place where
  outDir : String
  pooled : Bool
  files : List String

variable {cfg : Config} {place : Place} {t : Log}

/-- The directory of a student's own answers. -/
def OwnRoot (t : Log) (place : Place) (owner : Seat) (root : String) : Prop :=
  ∃ slot, Did t (.seatPoolAssignment owner.uid) slot ∧
    answerRoot place.outDir place.pooled owner slot = .ok root

/- The choice for a problem rests on one reading of the answer tree, of the file that was found
   there and of the web submissions of the student. -/
def Chose (t : Log) (cfg : Config) (place : Place) (owner : Seat) (name : String)
    (chosen : Chosen) : Prop :=
  ∃ root folder item latest text, OwnRoot t place owner root ∧
    Did t (.checkAnswerTree root owner.candidate place.files) folder ∧
    folder.get? name = some item ∧
    Did t (.latestWebSubmissions owner.uid) latest ∧
    (item.file ≠ "" → Did t (.readAnswer root item.file) text) ∧
    chosen = choose item text (webItem cfg name (latest.lookup name)) (latest.lookup name)

structure UserRead (t : Log) (cfg : Config) (place : Place) (owner : Seat)
    (user : UserAnswers) : Prop where
  order : user.chosen.keys.Sublist place.files
  every : ∀ name ∈ place.files, name ∈ user.chosen.keys
  read : ∀ name chosen, user.chosen.get? name = some chosen →
    Chose t cfg place owner name chosen

/- Students are told apart by their names. -/
structure Gathered (t : Log) (cfg : Config) (place : Place) (seats : List Seat)
    (answers : Dict String UserAnswers) : Prop where
  every : ∀ seat ∈ seats, ∃ user, answers.get? seat.uname = some user
  read : ∀ uname user, answers.get? uname = some user →
    ∃ owner ∈ seats, owner.uname = uname ∧ UserRead t cfg place owner user

/- A confirmed submission is that of a row which the run read for the student and problem. -/
def PrefinalizedRead (t : Log) (prefinalized : Prefinalized) : Prop :=
  ∀ uid name delivered, ((uid, name), delivered) ∈ prefinalized →
    ∃ latest row, Did t (.latestWebSubmissions uid) latest ∧ latest.lookup name = some row ∧
      row.submissionId ≠ "" ∧ Did t (.ensure row.id) delivered

theorem OwnRoot.mono {t' : Log} {owner : Seat} {root : String} (own : OwnRoot t place owner root)
    (more : t <+: t') : OwnRoot t' place owner root :=
  own.imp fun _ both => ⟨both.1.mono more, both.2⟩

theorem Chose.mono {t' : Log} {owner : Seat} {name : String} {chosen : Chosen}
    (chose : Chose t cfg place owner name chosen) (more : t <+: t') :
    Chose t' cfg place owner name chosen := by
  obtain ⟨root, folder, item, latest, text, own, tree, found, web, read, eq⟩ := chose
  exact ⟨root, folder, item, latest, text, own.mono more, tree.mono more, found, web.mono more,
    fun file => (read file).mono more, eq⟩

theorem UserRead.mono {t' : Log} {owner : Seat} {user : UserAnswers}
    (reading : UserRead t cfg place owner user) (more : t <+: t') :
    UserRead t' cfg place owner user :=
  ⟨reading.order, reading.every, fun name chosen got => (reading.read name chosen got).mono more⟩

theorem Gathered.mono {t' : Log} {seats : List Seat} {answers : Dict String UserAnswers}
    (gathered : Gathered t cfg place seats answers) (more : t <+: t') :
    Gathered t' cfg place seats answers := by
  refine ⟨gathered.every, fun uname user got => ?_⟩
  obtain ⟨owner, mem, same, reading⟩ := gathered.read uname user got
  exact ⟨owner, mem, same, reading.mono more⟩

theorem PrefinalizedRead.mono {t' : Log} {prefinalized : Prefinalized}
    (reading : PrefinalizedRead t prefinalized) (more : t <+: t') :
    PrefinalizedRead t' prefinalized := by
  intro uid name delivered mem
  obtain ⟨latest, row, web, found, sent, ensured⟩ := reading uid name delivered mem
  exact ⟨latest, row, web.mono more, found, sent, ensured.mono more⟩

theorem gathered_nil : Gathered t cfg place [] Dict.empty := ⟨nofun, nofun⟩

/- Another student's answers, which replace those of an earlier one of the same name. -/
theorem Gathered.set {seats : List Seat} {answers : Dict String UserAnswers} {seat : Seat}
    {user : UserAnswers} (gathered : Gathered t cfg place seats answers)
    (reading : UserRead t cfg place seat user) :
    Gathered t cfg place (seats ++ [seat]) (answers.set seat.uname user) := by
  constructor
  · intro other mem
    rw [Dict.get?_set]
    split
    · exact ⟨user, rfl⟩
    · next apart =>
      rcases List.mem_append.mp mem with old | new
      · exact gathered.every other old
      · exact absurd (congrArg Seat.uname (List.mem_singleton.mp new)) apart
  · intro uname other got
    rw [Dict.get?_set] at got
    split at got
    · next same =>
      cases got
      exact ⟨seat, List.mem_append_right _ (List.mem_singleton_self _), same.symm, reading⟩
    · obtain ⟨owner, mem, same, read⟩ := gathered.read uname other got
      exact ⟨owner, List.mem_append_left _ mem, same, read⟩

/- The run of a part in any environment, from a trace on. -/
abbrev Runs {ε α : Type} (grounds : Log → Call → Prop) (x : Program Call Answer Raised ε α) (t : Log)
    (post : α → Log → Prop) (raised : ε → Log → Prop := fun _ _ => True) : Prop :=
  Ends (tracing (fun _ => True) grounds) x t post raised

variable {grounds : Log → Call → Prop}

theorem Runs.then {ε α β : Type} {x : Program Call Answer Raised ε α}
    {f : α → Program Call Answer Raised ε β} {M : α → Log → Prop} {post : β → Log → Prop}
    (first : Runs grounds x t M) (second : ∀ a t', M a t' → Runs grounds (f a) t' post) :
    Runs grounds (x >>= f) t post :=
  Ends.bind tracing_monotone first second fun _ _ _ => trivial

theorem Runs.mono {ε α : Type} {x : Program Call Answer Raised ε α}
    {post post' : α → Log → Prop} (runs : Runs grounds x t post)
    (weaker : ∀ a t', post a t' → post' a t') : Runs grounds x t post' :=
  Ends.mono tracing_monotone runs weaker fun _ _ _ => trivial

theorem runs_call {c : Call} {P : Answer c → Log → Prop} (grounded : grounds t c)
    (returned : ∀ answer, P answer (t ++ [⟨c, .ok answer⟩])) : Runs grounds (call c) t P := by
  refine ⟨grounded, fun answer _ => ?_⟩
  cases answer with
  | ok answer => exact returned answer
  | error e => trivial

/- A call and what comes after it. -/
theorem runs_step {α : Type} {c : Call} {f : Answer c → Procedure α} {post : α → Log → Prop}
    (grounded : grounds t c) (later : ∀ answer, t <+: t ++ [⟨c, .ok answer⟩] →
      Did (t ++ [⟨c, .ok answer⟩]) c answer → Runs grounds (f answer) (t ++ [⟨c, .ok answer⟩]) post) :
    Runs grounds (call c >>= f) t post := by
  refine Runs.then (runs_call (P := fun answer t' => t' = t ++ [⟨c, .ok answer⟩]) grounded
    fun _ => rfl) ?_
  rintro answer t' rfl
  exact later answer (List.prefix_append ..) did_last

theorem runs_ofExcept {ε α β : Type} {result : Except ε α}
    {f : α → Program Call Answer Raised ε β} {post : β → Log → Prop}
    (later : ∀ a, result = .ok a → Runs grounds (f a) t post) :
    Runs grounds (Program.ofExcept result >>= f) t post := by
  cases result with
  | ok a => exact later a rfl
  | error e => trivial

theorem runs_raiseIf {α : Type} {bad : Prop} [Decidable bad] {message : String}
    {f : Unit → Procedure α} {post : α → Log → Prop}
    (later : ¬ bad → Runs grounds (f ()) t post) :
    Runs grounds (raiseIf bad message >>= f) t post := by
  unfold raiseIf Program.raiseIf
  split
  · trivial
  · next fine => exact later fine

/-- The calls that a law of the collection has no condition for. -/
def Quiet : Call → Prop
  | .submitOne _ | .enterSafeWait _ => False
  | _ => True

/- A part of quiet calls. -/
theorem runs_quiet {ε α β : Type} {x : Program Call Answer Raised ε α}
    {f : α → Program Call Answer Raised ε β} {post : β → Log → Prop} (only : Only Quiet x)
    (free : ∀ c, Quiet c → ∀ t, grounds t c)
    (later : ∀ a t', t <+: t' → Runs grounds (f a) t' post) : Runs grounds (x >>= f) t post := by
  refine Runs.then (Ends.mono tracing_monotone (only.traced free)
    (fun _ _ holds => holds) fun _ _ _ => trivial) ?_
  rintro a t' ⟨new, rfl, -⟩
  exact later a _ (List.prefix_append ..)

section Gather
variable (free : ∀ c, Quiet c → ∀ t, grounds t c)
include free

theorem gatherWeb_runs (dir : String) (latest : List (String × WebRow)) (names : List String)
    (web : Dict String WebItem) (known : ∀ name item, web.get? name = some item →
      item = webItem cfg name (latest.lookup name)) :
    Runs grounds (gatherWeb cfg dir latest names web) t fun result t' => t <+: t' ∧
      ∀ name item, result.get? name = some item → item = webItem cfg name (latest.lookup name) := by
  induction names generalizing t web with
  | nil => exact ⟨List.prefix_rfl, known⟩
  | cons name names ih =>
    have later : ∀ t', t <+: t' → Runs grounds
        (gatherWeb cfg dir latest names (web.set name (webItem cfg name (latest.lookup name))))
        t' fun result t'' => t <+: t'' ∧ ∀ name item,
          result.get? name = some item → item = webItem cfg name (latest.lookup name) := by
      intro t' more
      refine (ih _ ?_).mono fun result t'' post => ⟨more.trans post.1, post.2⟩
      intro other item got
      rw [Dict.get?_set] at got
      split at got
      · next same =>
        subst same
        exact (Option.some.inj got).symm
      · exact known other item got
    rw [gatherWeb]
    split
    · exact runs_step (free _ (by trivial) _) fun _ more _ => later _ more
    · exact later t List.prefix_rfl

theorem chooseProblem_runs {root : String} {folder : Dict String FolderItem}
    {web : Dict String WebItem} {latest : List (String × WebRow)} {owner : Seat}
    (own : OwnRoot t place owner root)
    (tree : Did t (.checkAnswerTree root owner.candidate place.files) folder)
    (read : Did t (.latestWebSubmissions owner.uid) latest)
    (known : ∀ name item, web.get? name = some item →
      item = webItem cfg name (latest.lookup name)) (name : String) :
    Runs grounds (chooseProblem root folder web latest name) t fun chosen t' =>
      t <+: t' ∧ Chose t' cfg place owner name chosen := by
  rw [chooseProblem]
  split
  · next item webItem' gotItem gotWeb =>
    have same := known name webItem' gotWeb
    subst same
    by_cases file : item.file = ""
    · rw [if_pos file]
      exact ⟨List.prefix_rfl, root, folder, item, latest, "", own, tree, gotItem, read,
        fun named => absurd file named, rfl⟩
    · rw [if_neg file]
      refine runs_step (free _ (by trivial) _) fun text more did => ?_
      exact ⟨more, root, folder, item, latest, text, own.mono more, tree.mono more, gotItem, read.mono more,
        fun _ => did, rfl⟩
  · trivial

theorem chooseAll_runs {root : String} {folder : Dict String FolderItem}
    {web : Dict String WebItem} {latest : List (String × WebRow)} {owner : Seat}
    (known : ∀ name item, web.get? name = some item →
      item = webItem cfg name (latest.lookup name)) (names done : List String)
    (chosen : Dict String Chosen) (own : OwnRoot t place owner root)
    (tree : Did t (.checkAnswerTree root owner.candidate place.files) folder)
    (read : Did t (.latestWebSubmissions owner.uid) latest) (order : chosen.keys.Sublist done)
    (every : ∀ name ∈ done, name ∈ chosen.keys)
    (chose : ∀ name selected, chosen.get? name = some selected →
      Chose t cfg place owner name selected) :
    Runs grounds (chooseAll root folder web latest names chosen) t fun result t' =>
      t <+: t' ∧ result.keys.Sublist (done ++ names) ∧
        (∀ name ∈ done ++ names, name ∈ result.keys) ∧
        ∀ name selected, result.get? name = some selected →
          Chose t' cfg place owner name selected := by
  induction names generalizing t done chosen with
  | nil =>
    rw [List.append_nil]
    exact ⟨List.prefix_rfl, order, every, chose⟩
  | cons name names ih =>
    rw [chooseAll]
    refine (chooseProblem_runs free own tree read known name).then ?_
    rintro selected t' ⟨more, mine⟩
    have keys : (chosen.set name selected).keys.Sublist (done ++ [name]) := by
      by_cases old : name ∈ chosen.keys
      · rw [Dict.keys_set_known old]
        exact order.trans (List.sublist_append_left _ _)
      · rw [Dict.keys_set_new old]
        exact order.append (List.Sublist.refl _)
    refine (ih (done ++ [name]) (chosen.set name selected) (own.mono more) (tree.mono more) (read.mono more) keys
      ?_ ?_).mono ?_
    · intro other mem
      rw [Dict.mem_keys_set]
      rcases List.mem_append.mp mem with old | new
      · exact .inr (every other old)
      · exact .inl (List.mem_singleton.mp new)
    · intro other value got
      rw [Dict.get?_set] at got
      split at got
      · next same =>
        cases got
        exact same ▸ mine
      · exact (chose other value got).mono more
    · rintro result t'' ⟨last, all⟩
      rw [List.append_assoc, List.singleton_append] at all
      exact ⟨more.trans last, all⟩

theorem gatherUser_runs (seat : Seat) :
    Runs grounds (gatherUser cfg place.outDir place.pooled place.files seat) t fun user t' =>
      t <+: t' ∧ UserRead t' cfg place seat user := by
  rw [gatherUser]
  refine runs_step (free _ (by trivial) _) fun slot m₁ assigned => runs_ofExcept fun root rooted => ?_
  refine runs_step (free _ (by trivial) _) fun folder m₂ tree => ?_
  refine runs_step (free _ (by trivial) _) fun latest m₃ read => ?_
  refine runs_step (free _ (by trivial) _) fun _ m₄ _ => ?_
  refine (gatherWeb_runs free _ latest place.files Dict.empty (by rintro _ _ ⟨⟩)).then ?_
  rintro web t₅ ⟨m₅, known⟩
  refine (chooseAll_runs free known place.files [] Dict.empty
    ⟨slot, (((assigned.mono m₂).mono m₃).mono m₄).mono m₅, rooted⟩ (((tree.mono m₃).mono m₄).mono m₅) ((read.mono m₄).mono m₅) (List.Sublist.refl _)
    (by rintro _ ⟨⟩) (by rintro _ _ ⟨⟩)).then ?_
  rintro chosen t₆ ⟨m₆, order, every, chose⟩
  rw [List.nil_append] at order every
  exact ⟨((((m₁.trans m₂).trans m₃).trans m₄).trans m₅).trans m₆, order, every, chose⟩

theorem gather_runs (place : Place) (seats done : List Seat)
    (answers : Dict String UserAnswers) (gathered : Gathered t cfg place done answers) :
    Runs grounds (gather cfg place.outDir place.pooled place.files seats answers) t fun result t' =>
      t <+: t' ∧ Gathered t' cfg place (done ++ seats) result := by
  induction seats generalizing t done answers with
  | nil =>
    rw [List.append_nil]
    exact ⟨List.prefix_rfl, gathered⟩
  | cons seat seats ih =>
    rw [gather]
    refine (gatherUser_runs free seat).then ?_
    rintro user t' ⟨more, reading⟩
    refine (ih (done ++ [seat]) _ ((gathered.mono more).set reading)).mono ?_
    rintro result t'' ⟨last, all⟩
    rw [List.append_assoc, List.singleton_append] at all
    exact ⟨more.trans last, all⟩

end Gather

end NoiContest.Collection
