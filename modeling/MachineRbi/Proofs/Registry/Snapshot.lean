import MachineRbi.Proofs.Registry

/-!
# A registry as a snapshot of its file

The registry of a path reads its file until that gives a manifest, and never again. Up to then every
query fails as the file at that moment makes reading fail, and leaves no trace; from then on the
registry is the one of the document that was read (`atPath_snapshot`). The history of a scene is cut
at the first query whose file gives a manifest: `Snapshot` says what holds on either side of the
cut.
-/

namespace MachineRbi

variable [Stack]

/-- The queries of a history up to the first one that finds a manifest, and those from there on. -/
structure Snapshot (path : String) (start : Scene) (front back : List Event) : Prop where
  /-- Before the cut what stands at the path at the moment of a query gives no manifest. The reply
  says why, and the query changes nothing. -/
  unread : ∀ earlier query later, front = earlier ++ .ask query :: later →
    ∃ failure,
      Registry.load path ((start.after earlier).workspace.find? (Path.ofText path)) =
        .error failure ∧
      (start.after earlier).reply query = .error failure ∧
      (start.after earlier).step (.ask query) = start.after earlier
  /-- Up to the cut the registry stays as it was. -/
  untouched : (start.after front).registry = .atPath path
  /-- Behind the cut, if there is anything, the registry is that of the document which stood at the
  path then: it replies as that does among any other files, whatever happens to them. -/
  read : back = [] ∨ ∃ query later document eager, back = .ask query :: later ∧
    Registry.readDocument (start.after front).workspace path = .ok document ∧
    Registry.ofValue path document = .ok eager ∧
    (start.after (front ++ [.ask query])).registry = eager ∧
    ∀ elsewhere workspace, elsewhere.filterMap Event.query? = back.filterMap Event.query? →
      (start.after front).replies back = (Scene.mk eager workspace).replies elsewhere

namespace Snapshot

variable {path : String} {start : Scene} {front back : List Event} {query : Query}

/-- A query that finds a manifest in the file is where the history is cut. -/
theorem of_load {manifest : Manifest} (hstart : start.registry = .atPath path)
    (hload : Registry.readManifest start.workspace path = .ok manifest) (later : List Event) :
    Snapshot path start [] (.ask query :: later) := by
  obtain ⟨document, hdocument, hmanifest⟩ := bind_eq_ok_iff.mp hload
  have heager : Registry.ofValue path document = .ok ⟨path, some manifest⟩ := by
    rw [Registry.ofValue, hmanifest]
    rfl
  have hread : start.registry.manifest start.workspace = .ok manifest := by
    rw [hstart]
    exact hload
  have hstep : (start.step (.ask query)).registry = ⟨path, some manifest⟩ := by
    rw [Scene.step, Registry.afterQuery_of_ok hread, hstart]
    rfl
  have hreply : start.reply query = query.ask manifest := by
    rw [Scene.reply, Registry.answer, hread]
    rfl
  have hloaded : (start.step (.ask query)).registry.loaded? = some manifest := by rw [hstep]
  refine ⟨?_, hstart, .inr ⟨query, later, document, _, rfl, hdocument, heager, hstep, ?_⟩⟩
  · intro earlier _ _ hnil
    cases earlier <;> cases hnil
  · intro elsewhere workspace hsame
    have heagerReplies := Scene.replies_of_loaded
      (show (Scene.mk ⟨path, some manifest⟩ workspace).registry.loaded? = some manifest from rfl)
      elsewhere
    rw [heagerReplies, hsame, Scene.after_nil, Scene.replies, hreply,
      Scene.replies_of_loaded hloaded]
    rfl

/-- An event before the cut that leaves the registry unread goes before it. -/
theorem cons {event : Event}
    (hevent : ∀ query, event = .ask query → ∃ failure,
      Registry.load path (start.workspace.find? (Path.ofText path)) = .error failure ∧
      start.reply query = .error failure ∧ start.step event = start)
    (h : Snapshot path (start.step event) front back) :
    Snapshot path start (event :: front) back := by
  refine ⟨?_, h.untouched, h.read⟩
  intro earlier query later heq
  cases earlier with
  | nil =>
      obtain ⟨rfl, -⟩ := List.cons.inj heq
      exact hevent query rfl
  | cons first rest =>
      obtain ⟨rfl, htail⟩ := List.cons.inj heq
      exact h.unread rest query later htail

/-- A registry that has not read its file either finds a manifest in it, or a query fails as reading
does and changes nothing. -/
theorem ask_cases (hstart : start.registry = .atPath path) (query : Query) :
    (∃ manifest, Registry.readManifest start.workspace path = .ok manifest) ∨
      ∃ failure, Registry.load path (start.workspace.find? (Path.ofText path)) = .error failure ∧
        start.reply query = .error failure ∧ start.step (.ask query) = start := by
  rw [← Registry.readManifest_eq_load]
  have hread : start.registry.manifest start.workspace =
      Registry.readManifest start.workspace path := by
    rw [hstart]
    rfl
  generalize Registry.readManifest start.workspace path = result at hread ⊢
  cases result with
  | ok manifest => exact .inl ⟨manifest, rfl⟩
  | error failure =>
      refine .inr ⟨failure, rfl, ?_, ?_⟩
      · rw [Scene.reply, Registry.answer, hread]
        rfl
      · rw [Scene.step, Registry.afterQuery_of_error hread]

end Snapshot

/-- Every history of the registry of a path is cut at the first query that finds a manifest in its
file. Before it every query fails as what stands at the path then makes reading fail, and changes
nothing; from it on the registry is that of the document which was read, whatever happens. -/
theorem Registry.atPath_snapshot (path : String) (workspace : Workspace) (events : List Event) :
    ∃ front back, events = front ++ back ∧
      Snapshot path ⟨.atPath path, workspace⟩ front back := by
  induction events generalizing workspace with
  | nil =>
      refine ⟨[], [], rfl, ?_, rfl, .inl rfl⟩
      intro earlier _ _ hnil
      cases earlier <;> cases hnil
  | cons event rest ih =>
      cases event with
      | change found =>
          obtain ⟨front, back, rfl, hsnapshot⟩ := ih found
          refine ⟨.change found :: front, back, rfl, .cons ?_ hsnapshot⟩
          intro query hask
          cases hask
      | ask query =>
          have hstart : (Scene.mk (.atPath path) workspace).registry = .atPath path := rfl
          rcases Snapshot.ask_cases hstart query with ⟨manifest, hload⟩ | hfails
          · exact ⟨[], .ask query :: rest, rfl, .of_load hstart hload rest⟩
          · obtain ⟨front, back, rfl, hsnapshot⟩ := ih workspace
            have hstep := hfails.choose_spec.2.2
            refine ⟨.ask query :: front, back, rfl, .cons ?_ ?_⟩
            · intro other hother
              cases hother
              exact hfails
            · rwa [hstep]

end MachineRbi
