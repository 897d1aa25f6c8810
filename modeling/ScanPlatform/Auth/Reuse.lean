import ScanPlatform.Auth.Rotation

/-!
# The reuse of a refresh token

A token that is presented although it has been rotated takes its descendants with it. They are
found one by one, by the successor that each row names, for a bounded number of turns.

* `TokenDb.Revoked`, `ReuseKills`: what descends from a reused token is revoked;
* `Caught`: no fork and no long chain below a token whose reuse is dealt with, and no rotation that
  the walk has overtaken;
* `Walk.Follows`: what a walk knows of the lineage that it follows;
* `follows_visit`, `follows_grows`: a turn of the walk, and what the others do meanwhile;
* **`reuse_kills`**: in runs in which reuse is caught, nothing that descends from a reused token
  lives; `fork_survives` is a run in which something does.
-/

set_option autoImplicit false

namespace ScanPlatform

open CondMachine Lineage

def TokenDb.Revoked (d : TokenDb) (id : Uuid) : Prop := ∃ r ∈ d.byId id, r.revokedAt.isSome

/-- Whatever descends from a token whose reuse has been dealt with is revoked. -/
def ReuseKills (d : TokenDb) : Prop :=
  ∀ token ∈ d.reused, ∀ id, Descends d.rotations token id → d.Revoked id

/-- A rotation that commits is of a token that no reused token leads to and that no walk has passed;
below a token whose reuse is dealt with there is no fork and no chain longer than the walk. -/
def Caught (s : TokenSystem) : TokenStep → Prop
  | .advance n _ =>
    (∀ token start t, s.sessions n = some (.minting token start t) →
      (s.db.rotate token t start).isSome →
        (∀ reused ∈ s.db.reused, ¬ Descends s.db.rotations reused token) ∧
        ∀ m w, s.sessions m = some (.walking w) → w.rotated → token ∉ w.seen) ∧
    ∀ w, s.sessions n = some (.walking w) → w.next = none → w.rotated →
      NoFork s.db.rotations w.token ∧
        ∀ k id, Steps s.db.rotations k w.token id → k < maxFamilyHops
  | .login _ _ _ _ _ | .refresh _ _ _ _ | .logout _ _ | .drop _ | .setStatus _ _ => True

/-! ## Walks -/

/-- What a walk knows: it has seen a token at each depth so far, each revoked or about to be, and
the token that it loads next lies below them. -/
structure Walk.Follows (w : Walk) (d : TokenDb) : Prop where
  started : 0 < w.seen.length
  count : w.seen.length + w.hops = maxFamilyHops
  handled : ∀ i ∈ w.seen, ∃ r, d.byId i = some r ∧ (r.revokedAt.isSome ∨ i ∈ w.revoking)
  depth : ∀ i ∈ w.seen, ∃ j < w.seen.length, Steps d.rotations j w.token i
  level : ∀ k < w.seen.length, ∃ i ∈ w.seen, Steps d.rotations k w.token i
  ahead : ∀ i, w.next = some i → Steps d.rotations w.seen.length w.token i
  ended : NoFork d.rotations w.token → w.next = none →
    w.hops = 0 ∨ ∀ i, Steps d.rotations w.seen.length w.token i → i ∈ w.seen

/-- Rows stay, and stay revoked. -/
def TokenDb.Keeps (d d' : TokenDb) : Prop :=
  ∀ i r, d.byId i = some r →
    ∃ r', d'.byId i = some r' ∧ (r.revokedAt.isSome → r'.revokedAt.isSome)

section

variable {d d' : TokenDb} {w : Walk} {id : Uuid} {cursor : RefreshToken}

theorem TokenDb.Inserts.keeps {t : NewToken} (h : d.Inserts t d') : d.Keeps d' := by
  intro i r hr
  have hne : i ≠ t.id := by
    rintro rfl
    rw [h.fresh] at hr
    cases hr
  exact ⟨r, by rw [h.rows, if_neg hne, hr], fun hrevoked => hrevoked⟩

theorem TokenDb.Revokes.keeps {ids : List Uuid} {now : ℤ} (h : d.Revokes ids now d') :
    d.Keeps d' := by
  intro i r hr
  refine ⟨_, by rw [h.rows, hr, Option.map_some], fun hrevoked => ?_⟩
  split_ifs
  · rfl
  · exact hrevoked

theorem TokenDb.Rotates.keeps {t : NewToken} {now : ℤ} (h : d.Rotates id t now d') :
    d.Keeps d' := by
  intro i r hr
  by_cases hid : i = id
  · obtain ⟨old, -, hold'⟩ := h.old
    exact ⟨_, hid ▸ hold', fun _ => rfl⟩
  · have hne : i ≠ t.id := by
      rintro rfl
      rw [h.fresh] at hr
      cases hr
    exact ⟨r, (h.others i hid hne).trans hr, fun hrevoked => hrevoked⟩

theorem TokenDb.Revoked.keeps (h : d.Revoked id) (hd : d.Keeps d') : d'.Revoked id := by
  obtain ⟨r, hr, hrevoked⟩ := h
  obtain ⟨r', hr', hkept⟩ := hd id r hr
  exact ⟨r', hr', hkept hrevoked⟩

/-- A token that has been rotated names the only successor that it has. -/
theorem TokenDb.Sound.successor (hd : d.Sound) {a b : Uuid} (hfork : NoFork d.rotations a)
    (hid : Descends d.rotations a id) (hlink : (id, b) ∈ d.rotations)
    (hr : d.byId id = some cursor) :
    cursor.replacedById = some b := by
  obtain ⟨r, hr', -, hreplaced⟩ := hd.rotated _ hlink
  obtain rfl : r = cursor := Option.some.inj (hr'.symm.trans hr)
  obtain ⟨c, hc⟩ := Option.isSome_iff_exists.mp hreplaced
  rw [hc, hfork id hid b c hlink (hd.logged id r hr c hc)]

/-- **The beginning of a walk.** -/
theorem follows_start (hd : d.Sound) (hr : d.byId cursor.id = some cursor)
    (hrevoked : cursor.revokedAt.isSome) (now : ℤ) : (Walk.start cursor now).Follows d := by
  have hstart : Walk.start cursor now = ⟨cursor.id, cursor.replacedById.isSome, now, [cursor.id],
      [], 99, cursor.replacedById⟩ := by
    have hnotNone : cursor.revokedAt.isNone = false := by simpa using hrevoked
    simp [Walk.start, Walk.visit, maxFamilyHops, hnotNone]
  rw [hstart]
  refine ⟨Nat.one_pos, rfl, fun i hi => ?_, fun i hi => ?_, fun k hk => ?_, fun i hi => ?_,
    fun hfork hnone => .inr fun i hi => ?_⟩
  · rw [List.mem_singleton.mp hi]
    exact ⟨cursor, hr, .inl hrevoked⟩
  · rw [List.mem_singleton.mp hi]
    exact ⟨0, Nat.one_pos, rfl⟩
  · obtain rfl : k = 0 := Nat.lt_one_iff.mp hk
    exact ⟨cursor.id, List.mem_singleton_self _, rfl⟩
  · exact ⟨cursor.id, rfl, hd.logged _ _ hr i hi⟩
  · obtain ⟨b, hb, hlink⟩ := hi
    cases hb
    have hsome := hd.successor hfork (.refl _ _) hlink hr
    exact absurd (hsome.symm.trans hnone) (by simp)

/-- **A turn of the walk.** -/
theorem follows_visit (hw : w.Follows d) (hd : d.Sound) (hnext : w.next = some cursor.id)
    (hr : d.byId cursor.id = some cursor) : (w.visit cursor).Follows d := by
  have hahead := hw.ahead _ hnext
  unfold Walk.visit
  by_cases hstop : w.hops = 0 ∨ w.seen.contains cursor.id
  · -- the turns are used up, or the token has been seen
    rw [if_pos hstop]
    refine ⟨hw.started, hw.count, hw.handled, hw.depth, hw.level, nofun, fun hfork _ => ?_⟩
    rcases hstop with hhops | hseen
    · exact .inl hhops
    · refine .inr fun i hi => ?_
      rw [hfork.unique hi hahead]
      exact List.contains_iff_mem.mp hseen
  · rw [if_neg hstop]
    have hlength : (w.seen ++ [cursor.id]).length = w.seen.length + 1 := by simp
    have hcount := hw.count
    have hhops : w.hops ≠ 0 := fun h => hstop (.inl h)
    refine ⟨?_, ?_, fun i hi => ?_, fun i hi => ?_, fun k hk => ?_, fun i hi => ?_,
      fun hfork hnone => .inr fun i hi => ?_⟩
    · simp
    · simp only [hlength]
      omega
    · rcases List.mem_append.mp hi with hi | hi
      · obtain ⟨r, hr', hhandled⟩ := hw.handled i hi
        refine ⟨r, hr', hhandled.imp_right fun hmem => ?_⟩
        simp only
        split_ifs
        · exact List.mem_append_left _ hmem
        · exact hmem
      · rw [List.mem_singleton.mp hi]
        refine ⟨cursor, hr, ?_⟩
        simp only
        split_ifs with hnone
        · exact .inr (List.mem_append_right _ (List.mem_singleton_self _))
        · exact .inl (Option.isSome_iff_ne_none.mpr (by simpa using hnone))
    · simp only [hlength]
      rcases List.mem_append.mp hi with hi | hi
      · obtain ⟨j, hj, hsteps⟩ := hw.depth i hi
        exact ⟨j, Nat.lt_succ_of_lt hj, hsteps⟩
      · rw [List.mem_singleton.mp hi]
        exact ⟨_, Nat.lt_succ_self _, hahead⟩
    · simp only [hlength] at hk
      rcases Nat.lt_succ_iff_lt_or_eq.mp hk with hlt | rfl
      · obtain ⟨i, hi, hsteps⟩ := hw.level k hlt
        exact ⟨i, List.mem_append_left _ hi, hsteps⟩
      · exact ⟨cursor.id, List.mem_append_right _ (List.mem_singleton_self _), hahead⟩
    · simp only [hlength]
      exact ⟨cursor.id, hahead, hd.logged _ _ hr i hi⟩
    · -- the last token has no successor
      simp only [hlength] at hi
      obtain ⟨b, hb, hlink⟩ := hi
      rw [hfork.unique hb hahead] at hlink
      have hsome := hd.successor hfork ⟨_, hahead⟩ hlink hr
      exact absurd (hsome.symm.trans hnone) (by simp)

/-- What others commit: more rotations, none of a token that the walk has passed. -/
theorem follows_grows (hw : w.Follows d) (hkeeps : d.Keeps d') {more : List (Uuid × Uuid)}
    (hmore : more = [] ∨ ∃ token new, more = [(token, new)] ∧ token ∉ w.seen)
    (hrotations : d'.rotations = d.rotations ++ more) : w.Follows d' := by
  have hsub : d.rotations ⊆ d'.rotations := hrotations ▸ List.subset_append_left _ _
  refine ⟨hw.started, hw.count, fun i hi => ?_, fun i hi => ?_, fun k hk => ?_, fun i hi => ?_,
    fun hfork hnone => ?_⟩
  · obtain ⟨r, hr, hhandled⟩ := hw.handled i hi
    obtain ⟨r', hr', hkept⟩ := hkeeps i r hr
    exact ⟨r', hr', hhandled.imp_left hkept⟩
  · obtain ⟨j, hj, hsteps⟩ := hw.depth i hi
    exact ⟨j, hj, hsteps.mono hsub⟩
  · obtain ⟨i, hi, hsteps⟩ := hw.level k hk
    exact ⟨i, hi, hsteps.mono hsub⟩
  · exact (hw.ahead i hi).mono hsub
  · refine (hw.ended (hfork.anti hsub) hnone).imp_right fun hend i hi => ?_
    rcases hmore with rfl | ⟨token, new, rfl, htoken⟩
    · rw [hrotations, List.append_nil] at hi
      exact hend i hi
    · rw [hrotations] at hi
      rcases hi.of_concat with hi | ⟨j, hj, hreached⟩
      · exact hend i hi
      · -- the token that is rotated would be one that the walk has seen
        obtain ⟨i', hi', hsteps⟩ := hw.level j hj
        rw [(hfork.anti hsub).unique hsteps hreached] at hi'
        exact absurd hi' htoken

/-- **A walk that has ended** has seen everything that descends from its token, unless the lineage
is too long. -/
theorem mem_seen_of_ended (hw : w.Follows d) (hnext : w.next = none)
    (hfork : NoFork d.rotations w.token)
    (hshort : ∀ k i, Steps d.rotations k w.token i → k < maxFamilyHops)
    (hid : Descends d.rotations w.token id) : id ∈ w.seen := by
  obtain ⟨k, hk⟩ := hid
  have hlevel : ∀ k < w.seen.length, ∀ i, Steps d.rotations k w.token i → i ∈ w.seen := by
    intro k hk i hi
    obtain ⟨i', hi', hsteps⟩ := hw.level k hk
    rwa [hfork.unique hi hsteps]
  rcases hw.ended hfork hnext with hhops | hend
  · have hcount := hw.count
    exact hlevel k (by have := hshort k id hk; omega) id hk
  · exact mem_of_closed hw.depth hlevel hend hk

end

/-! ## The invariant -/

/-- What holds between the steps. -/
structure TokenSystem.Watches (s : TokenSystem) : Prop where
  sound : s.db.Sound
  minted : ∀ p ∈ s.db.rotations, (s.db.byId p.2).isSome
  walks : ∀ n w, s.sessions n = some (.walking w) → w.rotated → w.Follows s.db
  kills : ReuseKills s.db

section

variable {ttl : ℤ} {s s' : TokenSystem} {a : TokenStep} {db : TokenDb} {session : TokenSession}

/-- Every row stays. -/
theorem commit_keeps (h : session.commit s.db = some db) : s.db.Keeps db := by
  rcases commit_cases h with ⟨t, -, hins⟩ | ⟨token, now, t, -, hrot⟩ | ⟨w, -, hrev, -⟩ |
    ⟨token, now, -, hrev, -⟩
  · exact hins.keeps
  · exact hrot.keeps
  · exact hrev.keeps
  · exact hrev.keeps

/-- What a commit adds to the rotations. -/
theorem commit_rotations (h : session.commit s.db = some db) :
    db.rotations = s.db.rotations ∨ ∃ token start t, session = .minting token start t ∧
      s.db.Rotates token t start db := by
  rcases commit_cases h with ⟨t, -, hins⟩ | ⟨token, now, t, hsession, hrot⟩ | ⟨w, -, hrev, -⟩ |
    ⟨token, now, -, hrev, -⟩
  · exact .inl hins.rotations
  · exact .inr ⟨token, now, t, hsession, hrot⟩
  · exact .inl hrev.rotations
  · exact .inl hrev.rotations

theorem commit_minted (hs : s.Watches) (h : session.commit s.db = some db) :
    ∀ p ∈ db.rotations, (db.byId p.2).isSome := by
  have hkept : ∀ p ∈ s.db.rotations, (db.byId p.2).isSome := by
    intro p hp
    obtain ⟨r, hr⟩ := Option.isSome_iff_exists.mp (hs.minted p hp)
    obtain ⟨r', hr', -⟩ := commit_keeps h _ r hr
    exact Option.isSome_iff_exists.mpr ⟨r', hr'⟩
  rcases commit_rotations h with hsame | ⟨token, start, t, -, hrot⟩
  · rw [hsame]
    exact hkept
  · intro p hp
    rw [hrot.rotations] at hp
    rcases List.mem_append.mp hp with hp | hp
    · exact hkept p hp
    · rw [List.mem_singleton.mp hp]
      exact Option.isSome_iff_exists.mpr ⟨_, hrot.new⟩

/-- The walks of the others go on after a commit. -/
theorem commit_walks {n : ℕ} {now : ℤ} (hs : s.Watches) (hcaught : Caught s (.advance n now))
    (hn : s.sessions n = some session) (h : session.commit s.db = some db) :
    ∀ m w, s.sessions m = some (.walking w) → w.rotated → w.Follows db := by
  intro m w hm hrotated
  rcases commit_rotations h with hsame | ⟨token, start, t, rfl, hrot⟩
  · exact follows_grows (hs.walks m w hm hrotated) (commit_keeps h) (.inl rfl)
      (by rw [hsame, List.append_nil])
  · have hcommits : (s.db.rotate token t start).isSome := Option.isSome_iff_exists.mpr ⟨db, h⟩
    have hpassed := (hcaught.1 token start t hn hcommits).2 m w hm hrotated
    exact follows_grows (hs.walks m w hm hrotated) (commit_keeps h)
      (.inr ⟨token, t.id, rfl, hpassed⟩) hrot.rotations

/-- What descends from a reused token is still revoked when the rotations are the same. -/
theorem ReuseKills.keeps {d d' : TokenDb} (h : ReuseKills d) (hkeeps : d.Keeps d')
    (hrotations : d'.rotations = d.rotations) {token : Uuid} (htoken : token ∈ d.reused) {id : Uuid}
    (hid : Descends d'.rotations token id) : d'.Revoked id :=
  (h token htoken id (hrotations ▸ hid)).keeps hkeeps

/-- **A commit leaves nothing alive** that descends from a reused token. -/
theorem commit_kills {n : ℕ} {now : ℤ} (hs : s.Watches) (hcaught : Caught s (.advance n now))
    (hn : s.sessions n = some session) (hready : session.ready = true)
    (h : session.commit s.db = some db) : ReuseKills db := by
  have hkeeps := commit_keeps h
  rcases commit_cases h with ⟨t, -, hins⟩ | ⟨token, start, t, rfl, hrot⟩ |
    ⟨w, rfl, hrev, hreused⟩ | ⟨token, start, -, hrev, hreused⟩
  · intro token htoken id hid
    exact hs.kills.keeps hkeeps hins.rotations (hins.reused ▸ htoken) hid
  · have hcommits : (s.db.rotate token t start).isSome := Option.isSome_iff_exists.mpr ⟨db, h⟩
    intro reused hmem id hid
    rw [hrot.reused] at hmem
    obtain ⟨k, hk⟩ := hid
    rw [hrot.rotations] at hk
    rcases hk.of_concat with hk | ⟨j, -, hj⟩
    · exact (hs.kills reused hmem id ⟨k, hk⟩).keeps hkeeps
    · exact absurd ⟨j, hj⟩ ((hcaught.1 token start t hn hcommits).1 reused hmem)
  · intro token htoken id hid
    rw [hreused] at htoken
    by_cases hold : token ∈ s.db.reused
    · exact hs.kills.keeps hkeeps hrev.rotations hold hid
    · -- the token whose reuse is dealt with now
      split_ifs at htoken with hrotated
      · obtain rfl := List.mem_singleton.mp ((List.mem_append.mp htoken).resolve_left hold)
        have hnext : w.next = none := Option.isNone_iff_eq_none.mp hready
        obtain ⟨hfork, hshort⟩ := hcaught.2 w hn hnext hrotated
        have hw := hs.walks n w hn hrotated
        have hseen := mem_seen_of_ended hw hnext hfork hshort (hrev.rotations ▸ hid)
        obtain ⟨r, hr, hhandled⟩ := hw.handled id hseen
        refine ⟨_, by rw [hrev.rows, hr, Option.map_some]; rfl, ?_⟩
        rcases hhandled with hrevoked | hrevoking
        · split_ifs
          · rfl
          · exact hrevoked
        · rw [if_pos hrevoking]
          rfl
      · exact absurd htoken hold
  · intro token htoken id hid
    exact hs.kills.keeps hkeeps hrev.rotations (hreused ▸ htoken) hid

/-- A walk after a statement. -/
theorem read_follows {n : ℕ} {now : ℤ} {w : Walk} (hs : s.Watches)
    (hn : s.sessions n = some session) (hready : session.ready = false)
    (hread : session.read ttl s.db now = some (.walking w)) (hrotated : w.rotated) :
    w.Follows s.db := by
  cases session with
  | presented tokenHash newId newHash =>
    simp only [TokenSession.read] at hread
    cases hhash : s.db.byHash tokenHash with
    | none => simp [hhash] at hread
    | some t =>
      simp only [hhash] at hread
      split_ifs at hread with hrevoked
      · cases hread
        have hmem := (TokenDb.byHash_eq_some.mp hhash).1
        exact follows_start hs.sound (TokenDb.byId_eq_some.mpr ⟨hmem, rfl⟩) hrevoked now
      · cases hread
  | walking v =>
    simp only [TokenSession.read] at hread
    obtain ⟨i, hi⟩ : ∃ i, v.next = some i := Option.isSome_iff_exists.mp (by
      simpa [TokenSession.ready, Option.isSome_iff_ne_none] using hready)
    rw [hi, Option.bind_some] at hread
    cases hrow : s.db.byId i with
    | none =>
      -- a token that was minted has a row
      simp only [hrow] at hread
      cases hread
      have hv := hs.walks n v hn hrotated
      obtain ⟨k, hk⟩ := Nat.exists_eq_succ_of_ne_zero hv.started.ne'
      have hahead := hv.ahead i hi
      rw [hk] at hahead
      obtain ⟨b, -, hlink⟩ := hahead
      have hsome := hs.minted _ hlink
      simp [hrow] at hsome
    | some cursor =>
      simp only [hrow] at hread
      cases hread
      have hsame : (v.visit cursor).rotated = v.rotated := by
        unfold Walk.visit
        split_ifs
        · rfl
        · rfl
        · rfl
      obtain rfl := (TokenDb.byId_eq_some.mp hrow).2
      exact follows_visit (hs.walks n v hn (hsame ▸ hrotated)) hs.sound hi hrow
  | checked t start newId newHash =>
    simp only [TokenSession.read] at hread
    split_ifs at hread
    cases hread
  | leaving tokenHash =>
    simp only [TokenSession.read] at hread
    cases hhash : s.db.byHash tokenHash with
    | none => simp [hhash] at hread
    | some t =>
      simp only [hhash] at hread
      split_ifs at hread
      cases hread
  | issuing t => cases hready
  | minting token start t => cases hready
  | revoking token start => cases hready

/-- **What a step keeps.** -/
theorem tokenStep_watches (hs : s.Watches) (hcaught : Caught s a)
    (h : tokenStep ttl a s = some s') : s'.Watches := by
  rcases tokenStep_cases h with ⟨n, now, session, db, rfl, hn, hready, hcommit, rfl⟩ |
    ⟨n, now, session, session', rfl, hn, hready, hread, rfl⟩ | ⟨n, session, hnew, rfl⟩ |
    ⟨n, rfl⟩ | ⟨f, rfl⟩
  · refine ⟨hs.sound.commit hcommit, commit_minted hs hcommit, fun m w hm hrotated => ?_,
      commit_kills hs hcaught hn hready hcommit⟩
    exact commit_walks hs hcaught hn hcommit m w (TokenSystem.finish_eq_some hm) hrotated
  · refine ⟨hs.sound, hs.minted, fun m w hm hrotated => ?_, hs.kills⟩
    simp only [Table.set_apply] at hm
    split_ifs at hm
    · obtain rfl := Option.some.inj hm
      have hfollows : w.Follows s.db := read_follows hs hn hready hread hrotated
      exact hfollows
    · exact hs.walks m w hm hrotated
  · refine ⟨hs.sound, hs.minted, fun m w hm hrotated => ?_, hs.kills⟩
    simp only [Table.set_apply] at hm
    split_ifs at hm
    · obtain rfl := Option.some.inj hm
      exact hnew.elim
    · exact hs.walks m w hm hrotated
  · exact ⟨hs.sound, hs.minted, fun m w hm => hs.walks m w (TokenSystem.finish_eq_some hm),
      hs.kills⟩
  · refine ⟨⟨hs.sound.rotated, hs.sound.logged⟩, hs.minted, fun m w hm hrotated => ?_, hs.kills⟩
    exact follows_grows (hs.walks m w hm hrotated) (fun i r hr => ⟨r, hr, fun h => h⟩) (.inl rfl)
      (List.append_nil _).symm

end

theorem watches_init (userStatus : Uuid → Option String) :
    (TokenSystem.init userStatus).Watches :=
  ⟨TokenDb.sound_init userStatus, nofun, nofun, nofun⟩

/-- **Reuse kills the branch**: in a run in which reuse is caught, whatever descends from a reused
token is revoked from then on. -/
theorem reuse_kills (ttl : ℤ) (userStatus : Uuid → Option String) {σ : List TokenStep}
    (hσ : Along (tokenStep ttl) Caught (.init userStatus) σ) :
    ReuseKills (run (tokenStep ttl) (.init userStatus) σ).db :=
  (run_invariant_along (fun _ _ _ => tokenStep_watches) (watches_init userStatus) hσ).kills

/-! ## A replay -/

section

variable {s : TokenSystem} {n : ℕ} {now : ℤ} {session : TokenSession}

/-- A statement that neither rotates a token nor ends a walk. -/
theorem caught_of_read (hn : s.sessions n = some session)
    (hmint : ∀ token start t, session ≠ .minting token start t)
    (hwalk : ∀ w, session = .walking w → w.next ≠ none) : Caught s (.advance n now) := by
  refine ⟨fun token start t h => ?_, fun w h hnone => ?_⟩
  · exact absurd (Option.some.inj (hn.symm.trans h)) (hmint token start t)
  · exact absurd hnone (hwalk w (Option.some.inj (hn.symm.trans h)))

end

/-- A login, a rotation, and the rotated token once more. -/
def replay : List TokenStep :=
  [.login 0 1 10 "t" 100, .advance 0 0, .refresh 1 "t" 11 "u", .advance 1 1, .advance 1 1,
    .advance 1 1, .refresh 2 "t" 12 "v", .advance 2 2, .advance 2 2, .advance 2 2]

/-- **The walk ends** with nothing alive below the token. -/
theorem reuse_kills_replay :
    ReuseKills (run (tokenStep 50) (.init fun _ => some "active") replay).db := by
  refine reuse_kills 50 (fun _ => some "active") (.cons trivial (.cons (caught_of_read rfl nofun
    nofun) (.cons trivial (.cons (caught_of_read rfl nofun nofun) (.cons (caught_of_read rfl nofun
    nofun) (.cons ⟨?_, nofun⟩ (.cons trivial (.cons (caught_of_read rfl nofun nofun) (.cons
    (caught_of_read rfl nofun ?_) (.cons ⟨nofun, ?_⟩ (along_nil _ _)))))))))))
  · intro token start t hn _
    obtain ⟨rfl, rfl, rfl⟩ := TokenSession.minting.inj (Option.some.inj hn)
    refine ⟨nofun, fun m w hm => ?_⟩
    match m with
    | 0 => cases hm
    | 1 => cases hm
    | m + 2 => cases hm
  · rintro w hw
    cases hw
    decide
  · rintro w hw -  -
    cases hw
    change NoFork [(10, 11)] 10 ∧ ∀ k id, Steps [(10, 11)] k 10 id → k < maxFamilyHops
    refine ⟨noFork_of_nodup (by decide) 10, fun k id hsteps => ?_⟩
    match k, hsteps with
    | 0, _ => decide
    | 1, _ => decide
    | k + 2, ⟨b, ⟨c, _, hc⟩, hb⟩ => 
      have h1 := (Prod.mk.inj (List.mem_singleton.mp hc)).2
      have h2 := (Prod.mk.inj (List.mem_singleton.mp hb)).1
      exact absurd (h1.symm.trans h2) (by decide)

/-! ## A fork -/

/-- One token rotated twice, and presented once more. -/
def forkedReplay : List TokenStep :=
  twoRefreshes ++ [.refresh 3 "t" 13 "w", .advance 3 2, .advance 3 2, .advance 3 2]

/-- **The other branch survives**: the walk follows the successor of the rotation that committed
last. -/
theorem fork_survives : ¬ ∀ (ttl : ℤ) (userStatus : Uuid → Option String) (σ : List TokenStep),
    ReuseKills (run (tokenStep ttl) (.init userStatus) σ).db := by
  intro hall
  have hkills := hall 50 (fun _ => some "active") forkedReplay
  have hdescends : Descends [((10 : Uuid), (11 : Uuid)), (10, 12)] 10 11 :=
    (Descends.refl _ 10).step (List.mem_cons_self ..)
  obtain ⟨r, hr, hrevoked⟩ := hkills 10 (List.mem_singleton_self _) 11 hdescends
  cases hr
  cases hrevoked

end ScanPlatform
