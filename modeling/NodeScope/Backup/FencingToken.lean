import NodeScope.Backup.LeaseSafety

/-!
# What a fencing token identifies

The history of acquisitions determines every token. An acquisition that finds a row of its
own replica returns the token of that row, expired or not; any other returns a token above
all earlier ones of the lease.
-/

namespace NodeScope.Backup

open Storage Lib

/-- The acquisition renewed a lease its replica held and that had not expired. -/
def Grant.Renews (g : Grant) : Prop :=
  ∃ old, g.previous = some old ∧ old.holderReplicaId = g.call.replicaId ∧
    g.call.vNow ≤ old.expiresAt

/-- The acquisition took back an expired lease that its own replica had held last. -/
def Grant.Retakes (g : Grant) : Prop :=
  ∃ old, g.previous = some old ∧ old.holderReplicaId = g.call.replicaId ∧
    old.expiresAt < g.call.vNow

/-- An acquisition stands in the history after the ones that explain the row it found. -/
structure Grant.Follows (granted : List Grant) (i : Nat) (g : Grant) : Prop where
  token : g.lease.fencingToken = g.call.token g.previous
  above : ∀ (j : Nat) (g' : Grant), j < i → granted[j]? = some g' →
    g'.call.leaseName = g.call.leaseName →
    ∃ old, g.previous = some old ∧ g'.lease.fencingToken ≤ old.fencingToken
  origin : ∀ old, g.previous = some old → ∃ (j : Nat) (g' : Grant), j < i ∧
    granted[j]? = some g' ∧ g'.call.leaseName = g.call.leaseName ∧
    g'.lease.fencingToken = old.fencingToken

/-- The history explains itself and the stored rows. -/
structure Chained (s : Leases) : Prop where
  grants : ∀ (i : Nat) (g : Grant), s.granted[i]? = some g → g.Follows s.granted i
  rows : ∀ leaseName row, s.table.find leaseName = some row →
    ∃ (j : Nat) (g : Grant), s.granted[j]? = some g ∧ g.call.leaseName = leaseName ∧
      g.lease.fencingToken = row.fencingToken

theorem chained_init (clock : Int) : Chained ⟨clock, LeaseTable.empty, []⟩ where
  grants i g hg := by simp at hg
  rows leaseName row hrow := by simp [LeaseTable.find_empty] at hrow

theorem Grant.Follows.mono {granted granted' : List Grant} (hgrows : granted <+: granted') {i : Nat}
    {g : Grant} (hi : i < granted.length) (h : g.Follows granted i) : g.Follows granted' i where
  token := h.token
  above j g' hj hg' := by
    refine h.above j g' hj ?_
    rw [← hg', List.prefix_iff_getElem?.mp hgrows j (by omega), List.getElem?_eq_getElem (by omega)]
  origin old hold := by
    obtain ⟨j, g', hj, hg', hrest⟩ := h.origin old hold
    exact ⟨j, g', hj, getElem?_of_extended hgrows hg', hrest⟩

theorem Chained.moves {s s' : Leases} (hmoves : s.Moves s') (hfenced : Fenced s) (h : Chained s) :
    Chained s' := by
  have hgrows := hmoves.granted
  rcases hmoves with ⟨htable, hgranted⟩ | ⟨c, lease, hacquires, hgranted⟩
  · refine ⟨?_, ?_⟩
    · rw [hgranted]
      exact h.grants
    · rw [htable, hgranted]
      exact h.rows
  · have hnew : s'.granted[s.granted.length]? =
        some ⟨c, s.table.find c.leaseName, lease⟩ := by
      rw [hgranted]
      exact Machine.getElem?_concat.mpr (Or.inr ⟨rfl, rfl⟩)
    constructor
    · intro i g hg
      rw [hgranted, Machine.getElem?_concat] at hg
      rcases hg with hg | ⟨rfl, rfl⟩
      · exact (h.grants i g hg).mono hgrows (List.getElem?_eq_some_iff.mp hg).1
      · refine ⟨hacquires.token, ?_, ?_⟩
        · intro j g' hj hg' hname
          rw [hgranted, List.getElem?_append_left hj] at hg'
          obtain ⟨row, hrow, hle, -⟩ := hfenced j g' hg'
          exact ⟨row, by rw [← hrow, hname], hle⟩
        · intro old hold
          obtain ⟨j, g', hg', hname, htoken⟩ := h.rows c.leaseName old hold
          exact ⟨j, g', (List.getElem?_eq_some_iff.mp hg').1, getElem?_of_extended hgrows hg', hname,
            htoken⟩
    · intro leaseName row hrow
      rcases hacquires.find leaseName with ⟨hname, row', hrow', -, htoken⟩ | ⟨-, hsame⟩
      · obtain rfl := Option.some.inj (hrow.symm.trans hrow')
        exact ⟨s.granted.length, _, hnew, hname, htoken.symm⟩
      · obtain ⟨j, g, hg, hrest⟩ := h.rows leaseName row (hsame.symm.trans hrow)
        exact ⟨j, g, getElem?_of_extended hgrows hg, hrest⟩

/-- Every acquisition but the renewal of an unexpired lease returns a token above all that
were returned for the lease before. -/
def TokensIncrease (granted : List Grant) : Prop :=
  ∀ (i j : Nat) (g g' : Grant), granted[i]? = some g → granted[j]? = some g' → j < i →
    g'.call.leaseName = g.call.leaseName → ¬ g.Renews →
    g'.lease.fencingToken < g.lease.fencingToken

/-- An acquisition that is no renewal and takes back no lapsed lease of its own replica
returns the next token. -/
theorem Grant.Follows.token_lt {granted : List Grant} {i j : Nat} {g g' : Grant}
    (h : g.Follows granted i) (hrenews : ¬ g.Renews) (hretakes : ¬ g.Retakes) (hj : j < i)
    (hg' : granted[j]? = some g') (hname : g'.call.leaseName = g.call.leaseName) :
    g'.lease.fencingToken < g.lease.fencingToken := by
  obtain ⟨old, hold, hle⟩ := h.above j g' hj hg' hname
  have hother : old.holderReplicaId ≠ g.call.replicaId := by
    intro hown
    rcases le_or_gt g.call.vNow old.expiresAt with hlive | hlapsed
    · exact hrenews ⟨old, hold, hown, hlive⟩
    · exact hretakes ⟨old, hold, hown, hlapsed⟩
  have htoken := h.token
  rw [hold, AcquireCall.token, if_neg hother] at htoken
  omega

theorem Grant.Retakes.not_renews {g : Grant} (h : g.Retakes) : ¬ g.Renews := by
  rintro ⟨old, hold, -, hlive⟩
  obtain ⟨old', hold', -, hlapsed⟩ := h
  obtain rfl := Option.some.inj (hold.symm.trans hold')
  omega

/-- Tokens increase exactly as long as no replica takes back its own lapsed lease. -/
theorem Chained.tokensIncrease_iff {s : Leases} (h : Chained s) :
    TokensIncrease s.granted ↔ ∀ g ∈ s.granted, ¬ g.Retakes := by
  constructor
  · intro hincrease g hmem hretakes
    obtain ⟨i, hg⟩ := List.mem_iff_getElem?.mp hmem
    have hfollows := h.grants i g hg
    have hrenews := hretakes.not_renews
    obtain ⟨old, hold, hown, -⟩ := hretakes
    obtain ⟨j, g', hj, hg', hname, horigin⟩ := hfollows.origin old hold
    have hlt := hincrease i j g g' hg hg' hj hname hrenews
    have htoken := hfollows.token
    rw [hold, AcquireCall.token, if_pos hown] at htoken
    omega
  · intro hnone i j g g' hg hg' hj hname hrenews
    exact (h.grants i g hg).token_lt hrenews (hnone g (List.mem_of_getElem? hg)) hj hg' hname

/-- Later acquisitions of a lease return at least the token of an earlier one. -/
theorem Chained.token_le {s : Leases} (h : Chained s) {i j : Nat} {g g' : Grant}
    (hg : s.granted[i]? = some g) (hg' : s.granted[j]? = some g') (hj : j ≤ i)
    (hname : g'.call.leaseName = g.call.leaseName) :
    g'.lease.fencingToken ≤ g.lease.fencingToken := by
  rcases hj.eq_or_lt with rfl | hj
  · obtain rfl := Option.some.inj (hg.symm.trans hg')
    exact le_rfl
  · have hfollows := h.grants i g hg
    obtain ⟨old, hold, hle⟩ := hfollows.above j g' hj hg' hname
    have htoken := hfollows.token
    rw [hold, AcquireCall.token] at htoken
    split_ifs at htoken <;> omega

end NodeScope.Backup
