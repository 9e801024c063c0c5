import AgentConnector.McpHotUpdate

/-!
# What a discovery of the MCP driver collects

`discover_tools` as a function of the server's answers. If the server ends its listing, the result
maps every allowed name to the schema that was listed last for it, and it replaces the schemas in
one step. The function asks for the next page as long as it is given a cursor: nothing but the
server bounds the number of its requests.
-/

namespace AgentConnector.Mcp

open Steps List

variable {c : Config} {s s' : Driver} {e : Event}

/-- `discover_tools` against the answers of the server, `none` while it waits for another one. -/
def discoverTools (c : Config) (found : Schemas) :
    List (Except String Page) → Option (Except String Schemas)
  | [] => none
  | .error e :: _ => some (.error e)
  | .ok p :: answers =>
    match p.nextCursor with
    | some _ => discoverTools c (c.addPage found p) answers
    | none => some (.ok (c.addPage found p))

/-- An answer after which no further page is asked for. -/
def EndsListing : Except String Page → Prop
  | .error _ => True
  | .ok p => p.nextCursor = none

/-- The answers of a server whose paging terminates. -/
inductive Listing : List (Except String Page) → Prop
  | last {a : Except String Page} : EndsListing a → Listing [a]
  | more {p : Page} {answers : List (Except String Page)} :
      p.nextCursor.isSome = true → Listing answers → Listing (.ok p :: answers)

def pagesOf (answers : List (Except String Page)) : List Page := answers.filterMap Except.toOption

/-- The schema with which the pages list a tool for the last time. -/
def lastSchema (pages : List Page) (name : String) : Option Json :=
  ((pages.flatMap Page.tools).reverse.find? (fun t => t.name == name)).map Tool.inputSchema

theorem lookup_foldl_keep (c : Config) (tools : List Tool) (name : String) :
    (tools.foldl c.keep ∅).lookup name = if c.allows name then
      (tools.reverse.find? (fun t => t.name == name)).map Tool.inputSchema else none := by
  induction tools using List.reverseRecOn with
  | nil => simp
  | append_singleton tools t ih =>
    rw [foldl_append, reverse_append, foldl_cons, foldl_nil, Config.keep,
      reverse_singleton, singleton_append, find?_cons]
    by_cases hname : t.name = name
    · subst hname
      by_cases ha : c.allows t.name = true
      · simp [ha]
      · rw [if_neg ha, ih, if_neg ha, if_neg ha]
    · have hother : ∀ found : Schemas, (if c.allows t.name = true then
          found.insert t.name t.inputSchema else found).lookup name = found.lookup name := by
        intro found
        split
        · exact AList.lookup_insert_ne (Ne.symm hname)
        · rfl
      rw [hother, ih, beq_false_of_ne hname]

theorem lookup_foldl_addPage (c : Config) (pages : List Page) (name : String) :
    (pages.foldl c.addPage ∅).lookup name =
      if c.allows name then lastSchema pages name else none := by
  have hfold : pages.foldl c.addPage ∅ = (pages.flatMap Page.tools).foldl c.keep ∅ := by
    rw [foldl_flatMap]
    rfl
  rw [hfold, lookup_foldl_keep]
  rfl

/-- A terminating listing gives a result, the collected schemas exactly if no page failed. -/
theorem discoverTools_of_listing (c : Config) (h : Listing answers) (found : Schemas) :
    ∃ r, discoverTools c found answers = some r ∧
      ((∃ m, r = .ok m) ↔ ∀ a ∈ answers, ∃ p, a = .ok p) ∧
      ∀ m, r = .ok m → m = (pagesOf answers).foldl c.addPage found := by
  induction h generalizing found with
  | @last a ha =>
    cases a with
    | error e => exact ⟨.error e, rfl, by simp, fun m hm => by cases hm⟩
    | ok p =>
      have hnone : p.nextCursor = none := ha
      refine ⟨.ok (c.addPage found p), by simp only [discoverTools, hnone], by simp, fun m hm => ?_⟩
      cases hm
      rfl
  | @more p answers hp _ ih =>
    obtain ⟨next, hnext⟩ := Option.isSome_iff_exists.mp hp
    obtain ⟨r, hr, hok, hfound⟩ := ih (c.addPage found p)
    refine ⟨r, by simp only [discoverTools, hnext, hr], ?_, hfound⟩
    rw [hok, forall_mem_cons]
    exact ⟨fun h => ⟨⟨p, rfl⟩, h⟩, And.right⟩

/-- The discovery under way is the one of `discover_tools` with the pages answered so far. -/
def Watcher.Discovers (c : Config) : Watcher → Prop
  | .discovering _ d => ∀ answers,
      discoverTools c ∅ (d.pages.map .ok ++ answers) = discoverTools c d.found answers
  | .storing _ d => discoverTools c ∅ (d.pages.map .ok) = some (.ok d.found)
  | _ => True

theorem Watcher.Discovers.move (h : s.watcher.Discovers c) (hm : Move c s e s') :
    s'.watcher.Discovers c := by
  cases hm with
  | @more first d p hw hp =>
    rw [hw] at h
    obtain ⟨next, hnext⟩ := Option.isSome_iff_exists.mp hp
    intro answers
    have hstep := h (.ok p :: answers)
    simp only [discoverTools, hnext] at hstep
    simpa [Discovery.add] using hstep
  | @last first d p hw hp =>
    rw [hw] at h
    have hstep := h [.ok p]
    simp only [discoverTools, hp] at hstep
    simpa [Watcher.Discovers, Discovery.add] using hstep
  | receive => exact fun _ => rfl
  | connectFailed | discoveryFailed | connect | store | closed | found | missing | update =>
    trivial
  | notify | register | admitted | reject | send | refuse | dropDriver | dropRegistry => exact h

theorem discovers_of_run (hrun : run (react c) .start es = some s) : s.watcher.Discovers c :=
  run_keeps (K := fun s => s.watcher.Discovers c) (fun h hstep => h.move (move_of_react hstep)) hrun
    (fun _ => rfl)

theorem Move.schemas_eq (hm : Move c s e s') (he : e ≠ .store) : s'.schemas = s.schemas := by
  cases hm <;> first | rfl | exact absurd rfl he

theorem Move.skills_eq (hm : Move c s e s') (hu : e ≠ .update) (hr : e ≠ .register) :
    s'.skills = s.skills := by
  cases hm <;> first | rfl | exact absurd rfl hu | exact absurd rfl hr

/-- Discovery is exact and atomic: a terminating listing gives a result, the schemas listed last for
the allowed names if no page failed. In every run only the end of a successful discovery changes the
schemas, to its result, and only registration and update change the skills; after an update the
skills are the names with a schema. -/
theorem discovery_exact (c : Config) {es : List Event} (hrun : run (react c) .start es = some s) :
    (∀ answers, Listing answers → ∃ r, discoverTools c ∅ answers = some r ∧
      ((∃ found, r = .ok found) ↔ ∀ a ∈ answers, ∃ p, a = .ok p) ∧
      ∀ found, r = .ok found → ∀ name,
        found.lookup name = if c.allows name then lastSchema (pagesOf answers) name else none) ∧
    (∀ first d, s.watcher = .discovering first d →
      (∀ error, discoverTools c ∅ (d.pages.map .ok ++ [.error error]) = some (.error error)) ∧
      ∃ s', react c s .pageError = some s' ∧ s'.schemas = s.schemas ∧ s'.skills = s.skills) ∧
    (∀ first d, s.watcher = .storing first d →
      discoverTools c ∅ (d.pages.map .ok) = some (.ok d.found) ∧
      ∃ s', react c s .store = some s' ∧ s'.schemas = d.found ∧ s'.skills = s.skills) ∧
    ∀ e s', react c s e = some s' →
      (e ≠ .store → s'.schemas = s.schemas) ∧
      (e ≠ .update → e ≠ .register → s'.skills = s.skills) ∧
      (e = .update → ∃ skills, s'.skills = some skills ∧ ∀ name, name ∈ skills ↔
        name ∈ s'.schemas) := by
  have hdiscovers := discovers_of_run hrun
  refine ⟨fun answers h => ?_, fun first d hw => ?_, fun first d hw => ?_, fun e s' hstep => ?_⟩
  · obtain ⟨r, hr, hok, hfound⟩ := discoverTools_of_listing c h ∅
    refine ⟨r, hr, hok, fun found hm name => ?_⟩
    rw [hfound found hm, lookup_foldl_addPage]
  · rw [hw] at hdiscovers
    refine ⟨fun error => (hdiscovers [.error error]).trans rfl, ?_⟩
    cases first with
    | true => exact ⟨{ s with watcher := .failed, signal := false }, by rw [react, hw], rfl, rfl⟩
    | false => exact ⟨{ s with watcher := .idle }, by rw [react, hw], rfl, rfl⟩
  · rw [hw] at hdiscovers
    refine ⟨hdiscovers, { s with schemas := d.found, listed := names d.pages, watcher := ?_ }, ?_,
      rfl, rfl⟩
    · exact if first then .idle else .stored
    · rw [react, hw]
  · have hm := move_of_react hstep
    refine ⟨hm.schemas_eq, hm.skills_eq, fun he => ?_⟩
    subst he
    cases hm with
    | update => exact ⟨_, rfl, fun name => AList.mem_keys.symm⟩

/-- Two pages that list one tool with two schemas. -/
def relisted : List (Except String Page) :=
  [.ok ⟨[⟨"a", .null⟩], some "2"⟩, .ok ⟨[⟨"a", .bool true⟩], none⟩]

theorem discovery_exact_relisted : ∃ found, discoverTools anyTool ∅ relisted = some (.ok found) ∧
    found.lookup "a" = some (.bool true) := by
  have hlisting : Listing relisted := .more rfl (.last rfl)
  have hrun : run (react anyTool) .start [] = some .start := rfl
  obtain ⟨r, hr, hok, hfound⟩ := (discovery_exact anyTool hrun).1 relisted hlisting
  obtain ⟨found, rfl⟩ := hok.mpr (by simp [relisted])
  exact ⟨found, hr, (hfound found rfl "a").trans rfl⟩

theorem discoverTools_isSome_iff (c : Config) (answers : List (Except String Page))
    (found : Schemas) : (discoverTools c found answers).isSome = true ↔
      ∃ a ∈ answers, EndsListing a := by
  induction answers generalizing found with
  | nil => simp [discoverTools]
  | cons a answers ih =>
    rw [exists_mem_cons_iff]
    cases a with
    | error e => simp [discoverTools, EndsListing]
    | ok p =>
      cases hp : p.nextCursor with
      | none => simp [discoverTools, EndsListing, hp]
      | some next => simp [discoverTools, EndsListing, hp, ih]

/-- A discovery ends after at most `bound` requests exactly if one of the first `bound` answers is
an error or the last page. -/
theorem discovery_ends_within_iff (c : Config) (server : ℕ → Except String Page) (bound : ℕ) :
    (discoverTools c ∅ ((List.range bound).map server)).isSome = true ↔
      ∃ n < bound, EndsListing (server n) := by
  rw [discoverTools_isSome_iff]
  simp only [mem_map, mem_range, exists_exists_and_eq_and]

def samePage : Page := ⟨[], some "again"⟩

theorem run_samePage (n : ℕ) : ∃ s d,
    run (react anyTool) .start (List.replicate n (.page samePage)) = some s ∧
    s.watcher = .discovering true d ∧ d.pages.length = n := by
  induction n with
  | zero => exact ⟨.start, .start, rfl, rfl, rfl⟩
  | succ n ih =>
    obtain ⟨s, d, hrun, hw, hlength⟩ := ih
    rw [replicate_succ']
    let s' : Driver := { s with
      watcher := .discovering true (d.add anyTool samePage)
      answered := s.answered ++ [samePage] }
    refine ⟨s', _, run_append hrun ?_, rfl, ?_⟩
    · rw [run, react, hw]
      rfl
    · simp [Discovery.add, hlength]

/-- A server that answers every request with a cursor keeps the driver asking. -/
theorem endless_listing : ∃ server : ℕ → Except String Page, ∀ bound,
    discoverTools anyTool ∅ ((List.range bound).map server) = none ∧
    ∃ es s d, run (react anyTool) .start es = some s ∧ s.watcher = .discovering true d ∧
      d.pages.length = bound := by
  refine ⟨fun _ => .ok samePage, fun bound => ⟨?_, _, run_samePage bound⟩⟩
  rw [← Option.not_isSome_iff_eq_none, discoverTools_isSome_iff]
  simp [EndsListing, samePage]

end AgentConnector.Mcp
