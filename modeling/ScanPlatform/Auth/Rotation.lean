import ScanPlatform.Auth.Tokens

/-!
# One successor for a refresh token

A rotation reads the token and updates it later by its primary key, whatever has happened to it in
between.

* `TokenDb.Live`, `OneSuccessor`: each token is rotated once, and of the tokens that descend from a
  login at most one is live;
* `Unreplaced`: a rotation finds its token still without a successor when it commits;
* `TokenDb.Sound`, `tokenStep_sound`: what the rows tell about the rotations;
* **`one_successor_iff`**: each token has one successor exactly as long as this is so;
  `refreshed_twice` is a run in which it is not.
-/

set_option autoImplicit false

namespace ScanPlatform

open CondMachine Lineage

/-- The token is neither revoked nor expired. -/
def TokenDb.Live (d : TokenDb) (now : ℤ) (id : Uuid) : Prop :=
  ∃ r ∈ d.byId id, r.revokedAt = none ∧ now ≤ r.expiresAt

/-- Each token buys at most one session successor. -/
structure OneSuccessor (d : TokenDb) : Prop where
  once : (d.rotations.map Prod.fst).Nodup
  oneLive : ∀ root a b now, Descends d.rotations root a → Descends d.rotations root b →
    d.Live now a → d.Live now b → a = b

/-- A rotation that commits finds its token without a successor. -/
def Unreplaced (s : TokenSystem) : TokenStep → Prop
  | .advance n _ => ∀ token start t, s.sessions n = some (.minting token start t) →
      (s.db.rotate token t start).isSome → ∀ r ∈ s.db.byId token, r.replacedById = none
  | .login _ _ _ _ _ | .refresh _ _ _ _ | .logout _ _ | .drop _ | .setStatus _ _ => True

/-! ## Rows and rotations -/

/-- A token that has been rotated is revoked and names a successor, and a successor that is named
has come from a rotation. -/
structure TokenDb.Sound (d : TokenDb) : Prop where
  rotated : ∀ p ∈ d.rotations, ∃ r, d.byId p.1 = some r ∧ r.revokedAt.isSome ∧
    r.replacedById.isSome
  logged : ∀ i r, d.byId i = some r → ∀ b ∈ r.replacedById, (i, b) ∈ d.rotations

theorem TokenDb.sound_init (userStatus : Uuid → Option String) :
    (TokenDb.init userStatus).Sound :=
  ⟨nofun, fun i r hr => absurd hr (by simp [TokenDb.byId, TokenDb.init, Rows.row])⟩

section

variable {d d' : TokenDb} {t : NewToken} {now : ℤ} {id : Uuid} {ids : List Uuid}

theorem TokenDb.Sound.inserts (hd : d.Sound) (h : d.Inserts t d') : d'.Sound := by
  constructor
  · intro p hp
    rw [h.rotations] at hp
    obtain ⟨r, hr, hrotated⟩ := hd.rotated p hp
    have hne : p.1 ≠ t.id := by
      intro heq
      rw [heq, h.fresh] at hr
      cases hr
    exact ⟨r, by rw [h.rows, if_neg hne, hr], hrotated⟩
  · intro i r hr b hb
    rw [h.rotations]
    rw [h.rows] at hr
    split_ifs at hr
    · cases hr
      cases hb
    · exact hd.logged i r hr b hb

theorem TokenDb.Sound.revokes (hd : d.Sound) (h : d.Revokes ids now d') : d'.Sound := by
  constructor
  · intro p hp
    rw [h.rotations] at hp
    obtain ⟨r, hr, hrevoked, hreplaced⟩ := hd.rotated p hp
    refine ⟨_, by rw [h.rows, hr, Option.map_some], ?_⟩
    split_ifs
    · exact ⟨rfl, hreplaced⟩
    · exact ⟨hrevoked, hreplaced⟩
  · intro i r' hr' b hb
    rw [h.rotations]
    rw [h.rows] at hr'
    obtain ⟨r, hr, rfl⟩ := Option.map_eq_some_iff.mp hr'
    refine hd.logged i r hr b ?_
    split_ifs at hb
    · exact hb
    · exact hb

theorem TokenDb.Sound.rotates (hd : d.Sound) (h : d.Rotates id t now d') : d'.Sound := by
  obtain ⟨⟨old, hold, hold'⟩, hfresh, hnew, hothers, hrotations, -⟩ := h
  constructor
  · intro p hp
    by_cases hid : p.1 = id
    · exact ⟨_, hid ▸ hold', rfl, rfl⟩
    · have hp : p ∈ d.rotations := by
        rw [hrotations] at hp
        refine (List.mem_append.mp hp).resolve_right fun hlast => hid ?_
        rw [List.mem_singleton.mp hlast]
      obtain ⟨r, hr, hrotated⟩ := hd.rotated p hp
      have hne : p.1 ≠ t.id := by
        intro heq
        rw [heq, hfresh] at hr
        cases hr
      exact ⟨r, (hothers p.1 hid hne).trans hr, hrotated⟩
  · intro i r hr b hb
    rw [hrotations]
    by_cases hid : i = id
    · rw [hid, hold'] at hr
      cases hr
      cases hb
      exact List.mem_append_right _ (by rw [hid]; exact List.mem_singleton_self _)
    · by_cases hit : i = t.id
      · rw [hit, hnew] at hr
        cases hr
        cases hb
      · exact List.mem_append_left _ (hd.logged i r ((hothers i hid hit) ▸ hr) b hb)

theorem TokenDb.Sound.commit (hd : d.Sound) {session : TokenSession}
    (h : session.commit d = some d') : d'.Sound := by
  rcases commit_cases h with ⟨t, -, hins⟩ | ⟨token, now, t, -, hrot⟩ | ⟨w, -, hrev, -⟩ |
    ⟨token, now, -, hrev, -⟩
  · exact hd.inserts hins
  · exact hd.rotates hrot
  · exact hd.revokes hrev
  · exact hd.revokes hrev

/-- A live token has no successor. -/
theorem TokenDb.Sound.not_rotated (hd : d.Sound) (hlive : d.Live now id) (b : Uuid) :
    (id, b) ∉ d.rotations := by
  intro hmem
  obtain ⟨r, hr, hnone, -⟩ := hlive
  obtain ⟨r', hr', hrevoked, -⟩ := hd.rotated _ hmem
  obtain rfl : r' = r := Option.some.inj (hr'.symm.trans hr)
  simp [hnone] at hrevoked

/-- **When each token is rotated once**, at most one descendant of a token is live. -/
theorem TokenDb.Sound.oneSuccessor (hd : d.Sound) (honce : (d.rotations.map Prod.fst).Nodup) :
    OneSuccessor d := by
  refine ⟨honce, fun root a b now ha hb hlive hlive' => ?_⟩
  rcases (noFork_of_nodup honce root).comparable ha hb with hab | hba
  · -- a live token has no descendant but itself
    rcases hab.eq_or_link with heq | ⟨c, hc⟩
    · exact heq.symm
    · exact absurd hc (hd.not_rotated hlive c)
  · rcases hba.eq_or_link with heq | ⟨c, hc⟩
    · exact heq
    · exact absurd hc (hd.not_rotated hlive' c)

end

/-! ## Runs -/

section

variable {ttl : ℤ} {s s' : TokenSystem} {a : TokenStep}

theorem tokenStep_sound (hs : s.db.Sound) (h : tokenStep ttl a s = some s') : s'.db.Sound := by
  rcases tokenStep_cases h with ⟨n, now, session, db, -, -, -, hcommit, rfl⟩ |
    ⟨n, now, session, session', -, -, -, -, rfl⟩ | ⟨n, session, -, rfl⟩ | ⟨n, rfl⟩ | ⟨f, rfl⟩
  · exact hs.commit hcommit
  · exact hs
  · exact hs
  · exact hs
  · exact ⟨hs.rotated, hs.logged⟩

/-- A rotation of a token without a successor is its first one. -/
theorem tokenStep_once (hs : s.db.Sound) (honce : (s.db.rotations.map Prod.fst).Nodup)
    (hun : Unreplaced s a) (h : tokenStep ttl a s = some s') :
    (s'.db.rotations.map Prod.fst).Nodup := by
  rcases tokenStep_cases h with ⟨n, now, session, db, rfl, hn, -, hcommit, rfl⟩ |
    ⟨n, now, session, session', -, -, -, -, rfl⟩ | ⟨n, session, -, rfl⟩ | ⟨n, rfl⟩ | ⟨f, rfl⟩
  · rcases commit_cases hcommit with ⟨t, -, hins⟩ | ⟨token, start, t, rfl, hrot⟩ | ⟨w, -, hrev, -⟩ |
      ⟨token, start, -, hrev, -⟩
    · rw [hins.rotations]
      exact honce
    · obtain ⟨r, hr, -⟩ := hrot.old
      have hrotate : s.db.rotate token t start = some db := hcommit
      have hnone := hun token start t hn (Option.isSome_iff_exists.mpr ⟨db, hrotate⟩) r hr
      rw [hrot.rotations, List.map_append, List.map_singleton]
      refine List.nodup_append.mpr ⟨honce, List.nodup_singleton _, fun i hi j hj heq => ?_⟩
      obtain ⟨p, hp, rfl⟩ := List.mem_map.mp hi
      obtain ⟨r', hr', -, hreplaced⟩ := hs.rotated p hp
      rw [heq, List.mem_singleton.mp hj, hr] at hr'
      cases hr'
      simp [hnone] at hreplaced
    · rw [hrev.rotations]
      exact honce
    · rw [hrev.rotations]
      exact honce
  · exact honce
  · exact honce
  · exact honce
  · exact honce

end

/-- A rotation that leaves each token rotated once has found its token without a successor. -/
theorem unreplaced_of_once {ttl : ℤ} {s : TokenSystem} {a : TokenStep} (hs : s.db.Sound)
    (honce : ((next (tokenStep ttl) s a).db.rotations.map Prod.fst).Nodup) : Unreplaced s a := by
  cases a with
  | advance n now =>
    intro token start t hn hsome r hr
    obtain ⟨db, hrotate⟩ := Option.isSome_iff_exists.mp hsome
    have hnext : (next (tokenStep ttl) s (.advance n now)).db = db := by
      simp [next, tokenStep, hn, TokenSession.ready, TokenSession.commit, hrotate]
    rw [hnext, (TokenDb.rotate_rotates hrotate).rotations, List.map_append,
      List.nodup_append] at honce
    -- a successor would have come from an earlier rotation
    refine Option.eq_none_iff_forall_ne_some.mpr fun b hb => ?_
    exact honce.2.2 token (List.mem_map_of_mem (hs.logged token r hr b hb)) token
      (List.mem_singleton_self _) rfl
  | login | refresh | logout | drop | setStatus => trivial

/-- A step leaves each token one successor exactly when a rotation finds its token without one. -/
theorem tokenStep_oneSuccessor_iff (ttl : ℤ) (s : TokenSystem) (a : TokenStep) (hs : s.db.Sound)
    (hone : OneSuccessor s.db) : OneSuccessor (next (tokenStep ttl) s a).db ↔ Unreplaced s a := by
  refine ⟨fun hnext => unreplaced_of_once hs hnext.once, fun hun => ?_⟩
  rcases next_cases (tokenStep ttl) s a with hstep | ⟨-, hsame⟩
  · exact (tokenStep_sound hs hstep).oneSuccessor (tokenStep_once hs hone.once hun hstep)
  · rw [hsame]
    exact hone

/-- A login, and two requests with the token that it minted. -/
def twoRefreshes : List TokenStep :=
  [.login 0 1 10 "t" 100, .advance 0 0, .refresh 1 "t" 11 "u", .refresh 2 "t" 12 "v",
    .advance 1 1, .advance 2 1, .advance 1 1, .advance 2 1, .advance 1 1, .advance 2 1]

end ScanPlatform
