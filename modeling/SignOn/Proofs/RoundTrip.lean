import SignOn.Proofs.Bytes
import SignOn.Proofs.RolesApart

/-! # Sessions that are written and read

`read_of_write`: what is written for a session is read as that session, from its bytes, too.  As long as its path
leads to the same text, the store gives it back, and whatever is done to the sessions of roles whose paths lead
elsewhere does not change that. -/

namespace SignOn

open Files (goal)

theorem StoredSession.Exportable.decode_bytes {s : StoredSession} (h : s.Exportable) :
    Json.decodeReading decoder (Json.readSymbols (Text.symbolsOfBytes s.written.toUTF8.data.toList)) = .ok s := by
  rw [Text.symbolsOfBytes_toUTF8]
  exact h.decode_written

namespace Store

/-- **Round trip.**  What is written for a session whose numbers are integers of 64 bits, and which is no deeper
than a text may be, is decoded to that session, from its bytes, too.  Without links, a session that has been
written is read as long as its path leads to the same text, so in particular behind any changes of roles whose
paths lead to other places. -/
theorem read_of_write {session : StoredSession} (hs : session.Exportable) :
    Json.decodeReading StoredSession.decoder
        (Json.readSymbols (Text.symbolsOfBytes session.written.toUTF8.data.toList)) = .ok session ∧
      ∀ {σ : Type} (b : PageBehaviour σ) (s : Store) (role : String) (w : World σ), w.disk.tree.LinkFree →
        ∀ path w', (s.write role session).run b w = (.ok path, w') →
          path = s.path role ∧
          (∀ v : World σ, v.disk.read path = w'.disk.read path → ((s.read role).run b v).1 = .ok session) ∧
          ∀ changes : List (String × Change),
            (∀ c ∈ changes, goal w'.disk.working path ≠ goal w'.disk.working (s.path c.1)) →
            ((s.read role).run b (s.afterAll b w' changes)).1 = .ok session := by
  refine ⟨hs.decode_bytes, ?_⟩
  intro σ b s role w hw path w' h
  obtain ⟨hpath, hfile⟩ := hasFile_of_run_write hw h
  have hread := hfile.read
  refine ⟨hpath, fun v hv => ?_, fun changes hother => ?_⟩
  · rw [hpath, hread] at hv
    exact read_of_content hs hv rfl
  · have hw' : w'.disk.tree.LinkFree := by
      have hfree := Plan.linkFree_run b (s.write role session) hw
      rwa [h] at hfree
    rw [hpath] at hother
    obtain ⟨init, name, temp, hparts, -, hname, hup, -⟩ := s.exists_names_path role
    have hkeeps := keepsAt_afterAll (b := b) (Files.getLast?_goal hparts hup w'.disk.working) hname hw' hother
    have hkept := hkeeps.hasFile hw' (s.linkFree_afterAll b hw' changes) hfile
    exact read_of_content hs hkept.read rfl

/-- A session with the least and the greatest integer, with controls and characters of several bytes, and with
containers that are empty. -/
def packed : StoredSession where
  cookies := .ofList
    [Json.ofMembers [("value", .string "\u0000\t\"\\/é€😀"), ("expires", .number (.int (-0x8000000000000000)))]]
  origins := .ofList [.array .nil, .object .nil, .number (.int 0xFFFFFFFFFFFFFFFF), .null]

theorem exportable_packed : packed.Exportable where
  cookies := by
    have hkeys : "expires" < "value" := by decide
    have hint : Number.IsInteger (.int (-0x8000000000000000)) := ⟨by decide, by decide⟩
    refine ⟨⟨fun m hm => ?_, hint, ⟨(fun m hm => by cases hm), trivial, trivial⟩⟩, trivial⟩
    rw [List.mem_singleton.mp hm]
    exact hkeys
  origins := by
    have hint : Number.IsInteger (.int 0xFFFFFFFFFFFFFFFF) := ⟨by decide, by decide⟩
    exact ⟨trivial, trivial, hint, trivial, trivial⟩
  depth := by decide

/-- That session is written, and it is read behind changes of another role. -/
theorem read_of_write_packed :
    packed.Exportable ∧ (shelf {}).disk.tree.LinkFree ∧
      ∃ w', ((Store.mk {} none .standard).write "viewer" packed).run Manager.homePage (shelf {}) =
        (.ok ".auth-states/viewer.json", w') ∧
        ∀ changes : List Change,
          (((Store.mk {} none .standard).read "viewer").run Manager.homePage
            ((Store.mk {} none .standard).afterAll Manager.homePage w' (changes.map ("admin", ·)))).1 =
              .ok packed := by
  have hfree := linkFree_shelf {}
  have hrun : (((Store.mk {} none .standard).write "viewer" packed).run Manager.homePage (shelf {})).1 =
      .ok ".auth-states/viewer.json" := rfl
  refine ⟨exportable_packed, hfree, _, Prod.ext hrun rfl, fun changes => ?_⟩
  obtain ⟨-, hread⟩ := read_of_write exportable_packed
  obtain ⟨-, -, hbehind⟩ := hread Manager.homePage (Store.mk {} none .standard) "viewer" (shelf {}) hfree _ _
    (Prod.ext hrun rfl)
  have hother : goal [] ".auth-states/viewer.json" ≠ goal [] ((Store.mk {} none .standard).path "admin") := by
    decide +kernel
  refine hbehind _ fun c hc => ?_
  obtain ⟨change, -, rfl⟩ := List.mem_map.mp hc
  exact hother

end Store

end SignOn
