import ChatStasher.Backfill.LedgerSpec
import ChatStasher.Library.Lists
import Mathlib.Data.List.TakeWhile

/-! The conversation lists of an account and the cursors with which a backfill reads them. -/
namespace ChatStasher

/-- How a plan's main list is read. -/
structure ListPlan where
  tokenMode : Bool
  cursorMode : Bool
  perplexity : Bool
  listOffsetInferred : Bool
  listLimit : ℕ

inductive EnumTruncation
  | hasMoreMissing
  | cursorMissing
  | emptyPageInferred
  | shortPageInferred
  deriving DecidableEq

/-- The cursor of the main list. -/
structure EnumCursor (F : Type*) where
  offset : ℕ
  complete : Bool
  cursor : Option ℤ
  token : Option String
  truncated : Option EnumTruncation
  pageFingerprints : List F
  deriving DecidableEq

def EnumCursor.start {F : Type*} : EnumCursor F := ⟨0, false, none, none, none, []⟩

/-- A page of the main list as the plan's parser reads it. -/
structure ListPage where
  ids : List Ident
  nextToken : Option String
  hasMore : Option Bool
  nextCursor : Option ℤ

section Main
variable {F : Type*} [DecidableEq F] (plan : ListPlan) (fingerprint : List Ident → F)

def EnumCursor.done (c : EnumCursor F) : Bool := c.complete || c.truncated.isSome

def EnumCursor.stop (c : EnumCursor F) (why : EnumTruncation) (complete : Bool) : EnumCursor F :=
  { c with complete := c.complete || complete, truncated := some why }

/-- What a page that is accepted says of the list's end. -/
def EnumCursor.ended (c : EnumCursor F) (page : ListPage) : EnumCursor F :=
  if page.ids = [] then
    if plan.perplexity then c.stop .emptyPageInferred false else { c with complete := true }
  else if plan.tokenMode then
    match page.nextToken with
    | none => { c with complete := true }
    | some token => { c with token := some token }
  else if plan.cursorMode then
    match page.hasMore, page.nextCursor with
    | none, _ => c.stop .hasMoreMissing true
    | some false, _ => { c with complete := true }
    | some true, none => c.stop .cursorMissing true
    | some true, some cursor => { c with cursor := some cursor }
  else if page.ids.length < plan.listLimit ∧ (plan.perplexity ∨ plan.listOffsetInferred) then
    c.stop .shortPageInferred false
  else c

/-- The cursor after a page of the main list; `none` for a page that the pass has already returned. -/
def readMainPage (c : EnumCursor F) (page : ListPage) : Option (EnumCursor F) :=
  let guardApplies := (plan.tokenMode || !plan.cursorMode) && !page.ids.isEmpty
  if guardApplies ∧ fingerprint page.ids ∈ c.pageFingerprints then none
  else
    some (EnumCursor.ended plan { c with
      pageFingerprints :=
        if guardApplies then c.pageFingerprints ++ [fingerprint page.ids] else c.pageFingerprints
      offset := c.offset + if plan.perplexity then plan.listLimit else page.ids.length } page)

end Main

section ChatGpt

structure ArchivedCursor where
  offset : ℕ
  complete : Bool
  lastPageIds : Option (List Ident)
  deriving DecidableEq

structure ProjectCursor where
  id : Ident
  name : String
  cursor : Option String
  complete : Bool
  deriving DecidableEq

structure ProjectsCursor where
  discoveryCursor : Option ℕ
  discoveryComplete : Bool
  entries : List ProjectCursor
  deriving DecidableEq

/-- The cursors of ChatGPT's further lists. -/
structure ChatGptEnumeration where
  archived : ArchivedCursor
  projects : ProjectsCursor
  deriving DecidableEq

def newChatGptEnumeration : ChatGptEnumeration := ⟨⟨0, false, none⟩, ⟨none, false, []⟩⟩

/-- The lists of an account as its platform serves them. -/
structure AccountLists where
  main : ℕ → Option ℤ → Option String → ListPage
  archived : ℕ → List Ident
  projects : Option ℕ → List (Ident × String) × Option ℕ
  conversations : Ident → Option String → List Ident × Option String

/-- The cursor after a page of the archived list; `none` for the prior page once more. -/
def readArchivedPage (c : ArchivedCursor) (ids : List Ident) : Option ArchivedCursor :=
  if ids ≠ [] ∧ ∃ last ∈ c.lastPageIds, ids.Perm last then none
  else some
    { offset := c.offset + ids.length
      complete := ids.isEmpty
      lastPageIds := if ids = [] then c.lastPageIds else some ids }

def addProject (entries : List ProjectCursor) (discovered : Ident × String) : List ProjectCursor :=
  if discovered.1 ∈ entries.map ProjectCursor.id then entries
  else entries ++ [⟨discovered.1, discovered.2, none, false⟩]

def readProjectsPage (p : ProjectsCursor) (page : List (Ident × String) × Option ℕ) :
    Option ProjectsCursor :=
  if p.discoveryCursor ≠ none ∧ page.2 = p.discoveryCursor then none
  else some ⟨page.2, page.2.isNone, page.1.foldl addProject p.entries⟩

def readConversationsPage (e : ProjectCursor) (page : List Ident × Option String) :
    Option ProjectCursor :=
  if e.cursor ≠ none ∧ page.2 = e.cursor then none
  else some { e with cursor := page.2, complete := page.2.isNone }

/-- The list an auxiliary page is read from, with the project whose turn it is. -/
inductive AuxSource
  | archived
  | projectDiscovery
  | project (before : List ProjectCursor) (entry : ProjectCursor) (after : List ProjectCursor)

def auxSource (workspaceScoped : Bool) (enumeration : ChatGptEnumeration) : Option AuxSource :=
  if !enumeration.archived.complete then some .archived
  else if !workspaceScoped then none
  else if !enumeration.projects.discoveryComplete then some .projectDiscovery
  else
    match enumeration.projects.entries.dropWhile (·.complete) with
    | [] => none
    | entry :: after =>
      some (.project (enumeration.projects.entries.takeWhile (·.complete)) entry after)

/-- The cursors after one auxiliary page and the ids it lists; `none` where it is refused. -/
def readAuxPage (lists : AccountLists) (enumeration : ChatGptEnumeration) :
    AuxSource → Option (ChatGptEnumeration × List Ident)
  | .archived =>
    let ids := lists.archived enumeration.archived.offset
    (readArchivedPage enumeration.archived ids).map fun archived => ({ enumeration with archived }, ids)
  | .projectDiscovery =>
    (readProjectsPage enumeration.projects
      (lists.projects enumeration.projects.discoveryCursor)).map fun projects =>
        ({ enumeration with projects }, [])
  | .project before entry after =>
    let page := lists.conversations entry.id entry.cursor
    (readConversationsPage entry page).map fun entry =>
      ({ enumeration with projects.entries := before ++ entry :: after }, page.1)

end ChatGpt

section Named
variable {F : Type*} [DecidableEq F] (plan : ListPlan) (fingerprint : List Ident → F)
variable (lists : AccountLists)

def AccountLists.mainPage (c : EnumCursor F) : ListPage := lists.main c.offset c.cursor c.token

def AccountLists.mainPages : PagedList (EnumCursor F) Ident where
  done := EnumCursor.done
  page c := (lists.mainPage c).ids
  next c := readMainPage plan fingerprint c (lists.mainPage c)

def AccountLists.archivedPages : PagedList ArchivedCursor Ident where
  done c := c.complete
  page c := lists.archived c.offset
  next c := readArchivedPage c (lists.archived c.offset)

/-- The discovered projects, from a cursor and whether the discovery is complete. -/
def AccountLists.projectPages : PagedList (Option ℕ × Bool) (Ident × String) where
  done c := c.2
  page c := (lists.projects c.1).1
  next c :=
    let next := (lists.projects c.1).2
    if c.1 ≠ none ∧ next = c.1 then none else some (next, next.isNone)

def AccountLists.conversationPages (project : Ident) : PagedList (Option String × Bool) Ident where
  done c := c.2
  page c := (lists.conversations project c.1).1
  next c :=
    let next := (lists.conversations project c.1).2
    if c.1 ≠ none ∧ next = c.1 then none else some (next, next.isNone)

/-- What the project lists still name: of the entries, and of the projects still to be discovered. -/
def AccountLists.ProjectsName (p : ProjectsCursor) (id : Ident) : Prop :=
  (∃ e ∈ p.entries, (lists.conversationPages e.id).Names (e.cursor, e.complete) id) ∨
    ∃ discovered, lists.projectPages.Names (p.discoveryCursor, p.discoveryComplete) discovered ∧
      discovered.1 ∉ p.entries.map ProjectCursor.id ∧
        (lists.conversationPages discovered.1).Names (none, false) id

def AccountLists.AuxName (workspaceScoped : Bool) (enumeration : ChatGptEnumeration) (id : Ident) :
    Prop :=
  lists.archivedPages.Names enumeration.archived id ∨
    workspaceScoped = true ∧ lists.ProjectsName enumeration.projects id

variable {lists}

lemma foldl_addProject (N : ProjectCursor → Prop) (hfresh : ∀ i n n', N ⟨i, n, none, false⟩ → N ⟨i, n', none, false⟩)
    (page : List (Ident × String)) (entries : List ProjectCursor) :
    ((∃ e ∈ page.foldl addProject entries, N e) ↔ (∃ e ∈ entries, N e) ∨
      ∃ p ∈ page, p.1 ∉ entries.map ProjectCursor.id ∧ N ⟨p.1, p.2, none, false⟩) ∧
      ∀ pid, pid ∈ (page.foldl addProject entries).map ProjectCursor.id ↔
        pid ∈ entries.map ProjectCursor.id ∨ pid ∈ page.map Prod.fst := by
  induction page generalizing entries with
  | nil => simp
  | cons q page ih =>
    obtain ⟨hnames, hids⟩ := ih (addProject entries q)
    rw [List.foldl_cons]
    by_cases hold : q.1 ∈ entries.map ProjectCursor.id
    · have hadd : addProject entries q = entries := if_pos hold
      rw [hadd] at hnames hids ⊢
      refine ⟨hnames.trans (or_congr_right ⟨?_, ?_⟩), fun pid => ?_⟩
      · rintro ⟨p, hp, hrest⟩
        exact ⟨p, List.mem_cons_of_mem _ hp, hrest⟩
      · rintro ⟨p, hp, hnew, hN⟩
        rcases List.mem_cons.mp hp with rfl | hp
        · exact absurd hold hnew
        · exact ⟨p, hp, hnew, hN⟩
      · rw [hids pid, List.map_cons, List.mem_cons]
        constructor
        · tauto
        · rintro (h | rfl | h)
          · exact .inl h
          · exact .inl hold
          · exact .inr h
    · have hadd : addProject entries q = entries ++ [⟨q.1, q.2, none, false⟩] := if_neg hold
      rw [hadd] at hnames hids ⊢
      refine ⟨hnames.trans ⟨?_, ?_⟩, fun pid => ?_⟩
      · rintro (⟨e, he, hN⟩ | ⟨p, hp, hnew, hN⟩)
        · rcases List.mem_append.mp he with he | he
          · exact .inl ⟨e, he, hN⟩
          · obtain rfl := List.mem_singleton.mp he
            exact .inr ⟨q, List.mem_cons_self, hold, hN⟩
        · rw [List.map_append, List.mem_append, not_or] at hnew
          exact .inr ⟨p, List.mem_cons_of_mem _ hp, hnew.1, hN⟩
      · rintro (⟨e, he, hN⟩ | ⟨p, hp, hnew, hN⟩)
        · exact .inl ⟨e, List.mem_append_left _ he, hN⟩
        · by_cases hq : p.1 = q.1
          · refine .inl ⟨⟨q.1, q.2, none, false⟩, by simp, hfresh _ p.2 _ (hq ▸ hN)⟩
          · rcases List.mem_cons.mp hp with rfl | hp
            · exact absurd rfl hq
            · refine .inr ⟨p, hp, ?_, hN⟩
              rw [List.map_append, List.mem_append, not_or]
              exact ⟨hnew, by simpa using hq⟩
      · rw [hids pid]
        simp only [List.map_append, List.map_cons, List.map_nil, List.mem_append, List.mem_cons]
        tauto

lemma archivedName_iff {c c' : ArchivedCursor} (hopen : c.complete = false)
    (hread : readArchivedPage c (lists.archived c.offset) = some c') (id : Ident) :
    lists.archivedPages.Names c id ↔
      id ∈ lists.archived c.offset ∨ lists.archivedPages.Names c' id :=
  PagedList.names_iff (l := lists.archivedPages) hopen hread

lemma projectsName_discovered_iff {p p' : ProjectsCursor} (hopen : p.discoveryComplete = false)
    (hread : readProjectsPage p (lists.projects p.discoveryCursor) = some p') (id : Ident) :
    lists.ProjectsName p id ↔ lists.ProjectsName p' id := by
  unfold readProjectsPage at hread
  split at hread
  · cases hread
  · rename_i hnew
    cases hread
    have hopen : lists.projectPages.done (p.discoveryCursor, p.discoveryComplete) = false := hopen
    have hnext : lists.projectPages.next (p.discoveryCursor, p.discoveryComplete) =
        some ((lists.projects p.discoveryCursor).2, (lists.projects p.discoveryCursor).2.isNone) :=
      if_neg hnew
    obtain ⟨hnames, hids⟩ := foldl_addProject
      (fun e => (lists.conversationPages e.id).Names (e.cursor, e.complete) id)
      (fun _ _ _ h => h) (lists.projects p.discoveryCursor).1 p.entries
    unfold AccountLists.ProjectsName
    dsimp only
    rw [hnames]
    constructor
    · rintro (h | ⟨q, hq, hfresh, hN⟩)
      · exact .inl (.inl h)
      · rw [PagedList.names_iff hopen hnext] at hq
        by_cases hpage : q.1 ∈ (lists.projects p.discoveryCursor).1.map Prod.fst
        · obtain ⟨q', hq', hid⟩ := List.mem_map.mp hpage
          exact .inl (.inr ⟨q', hq', hid ▸ hfresh, hid ▸ hN⟩)
        · rcases hq with hq | hq
          · exact absurd (List.mem_map_of_mem hq) hpage
          · refine .inr ⟨q, hq, ?_, hN⟩
            rw [hids, not_or]
            exact ⟨hfresh, hpage⟩
    · rintro ((h | ⟨q, hq, hfresh, hN⟩) | ⟨q, hq, hfresh, hN⟩)
      · exact .inl h
      · exact .inr ⟨q, .here hopen hq, hfresh, hN⟩
      · rw [hids, not_or] at hfresh
        exact .inr ⟨q, .later hopen hnext hq, hfresh.1, hN⟩

lemma projectsName_entry_iff {p : ProjectsCursor} {before after : List ProjectCursor}
    {e e' : ProjectCursor} (hentries : p.entries = before ++ e :: after) (hopen : e.complete = false)
    (hread : readConversationsPage e (lists.conversations e.id e.cursor) = some e') (id : Ident) :
    lists.ProjectsName p id ↔ id ∈ (lists.conversations e.id e.cursor).1 ∨
      lists.ProjectsName { p with entries := before ++ e' :: after } id := by
  unfold readConversationsPage at hread
  split at hread
  · cases hread
  · rename_i hnew
    cases hread
    have hopen : (lists.conversationPages e.id).done (e.cursor, e.complete) = false := hopen
    have hnext : (lists.conversationPages e.id).next (e.cursor, e.complete) =
        some ((lists.conversations e.id e.cursor).2,
          (lists.conversations e.id e.cursor).2.isNone) := if_neg hnew
    have hnames := @PagedList.names_iff _ _ _ _ _ id hopen hnext
    unfold AccountLists.ProjectsName
    simp only [hentries, List.mem_append, List.mem_cons, List.map_append, List.map_cons, or_and_right,
      exists_or, exists_eq_left, hnames]
    have hpage : id ∈ (lists.conversationPages e.id).page (e.cursor, e.complete) ↔
      id ∈ (lists.conversations e.id e.cursor).1 := Iff.rfl
    have hshuffle : ∀ A B C D X : Prop, (A ∨ (X ∨ B) ∨ C) ∨ D ↔ X ∨ (A ∨ B ∨ C) ∨ D := by tauto
    rw [hpage]
    exact hshuffle _ _ _ _ _

theorem auxName_iff {workspaceScoped : Bool} {enumeration enumeration' : ChatGptEnumeration}
    {source : AuxSource} {ids : List Ident} (hsource : auxSource workspaceScoped enumeration = some source)
    (hread : readAuxPage lists enumeration source = some (enumeration', ids)) (id : Ident) :
    lists.AuxName workspaceScoped enumeration id ↔
      id ∈ ids ∨ lists.AuxName workspaceScoped enumeration' id := by
  unfold auxSource at hsource
  split_ifs at hsource with harchived hscoped hdiscovery
  · cases hsource
    have hopen : enumeration.archived.complete = false := by simpa using harchived
    obtain ⟨archived, hpage, heq⟩ := Option.map_eq_some_iff.mp hread
    cases heq
    unfold AccountLists.AuxName
    rw [archivedName_iff hopen hpage, or_assoc]
  · cases hsource
    have hopen : enumeration.projects.discoveryComplete = false := by simpa using hdiscovery
    obtain ⟨projects, hpage, heq⟩ := Option.map_eq_some_iff.mp hread
    cases heq
    unfold AccountLists.AuxName
    rw [projectsName_discovered_iff hopen hpage]
    simp
  · cases hentries : enumeration.projects.entries.dropWhile (·.complete) with
    | nil => simp [hentries] at hsource
    | cons entry after =>
      rw [hentries] at hsource
      cases hsource
      have hsplit : enumeration.projects.entries =
          enumeration.projects.entries.takeWhile (·.complete) ++ entry :: after := by
        rw [← hentries, List.takeWhile_append_dropWhile]
      have hopen : entry.complete = false := by
        have hne : enumeration.projects.entries.dropWhile (·.complete) ≠ [] := by simp [hentries]
        simpa [hentries] using List.head_dropWhile_not (fun e : ProjectCursor => e.complete) hne
      obtain ⟨entry', hpage, heq⟩ := Option.map_eq_some_iff.mp hread
      cases heq
      have hws : workspaceScoped = true := by simpa using hscoped
      unfold AccountLists.AuxName
      rw [projectsName_entry_iff hsplit hopen hpage]
      simp only [hws, true_and]
      exact or_left_comm

theorem not_auxName_of_no_source {workspaceScoped : Bool} {enumeration : ChatGptEnumeration}
    (h : auxSource workspaceScoped enumeration = none) (id : Ident) :
    ¬ lists.AuxName workspaceScoped enumeration id := by
  unfold auxSource at h
  split_ifs at h with harchived hscoped hdiscovery
  · have hdone : enumeration.archived.complete = true := by simpa using harchived
    rintro (hname | ⟨hws, -⟩)
    · exact PagedList.not_names_of_done hdone hname
    · simp [hws] at hscoped
  · have hdone : enumeration.archived.complete = true := by simpa using harchived
    have hdiscovered : enumeration.projects.discoveryComplete = true := by simpa using hdiscovery
    rintro (hname | ⟨-, ⟨e, he, hname⟩ | ⟨q, hname, -⟩⟩)
    · exact PagedList.not_names_of_done hdone hname
    · have hnil : enumeration.projects.entries.dropWhile (·.complete) = [] := by
        split at h
        · assumption
        · cases h
      have hcomplete := List.dropWhile_eq_nil_iff.mp hnil e he
      exact PagedList.not_names_of_done hcomplete hname
    · exact PagedList.not_names_of_done hdiscovered hname

end Named

end ChatStasher
