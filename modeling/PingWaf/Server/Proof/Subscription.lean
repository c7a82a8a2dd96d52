import PingWaf.Lib.Framing
import PingWaf.Routing.Location
import PingWaf.Server.Subscription

/-!
# Which subscriptions the data plane can use

The data plane reads each returned range as a network or an address, and a location with one that it
cannot read does not build.
-/

namespace PingWaf.Server

open Text Net Waf Routing

/-! ## What is returned -/

/-- The lines or entries of a body. -/
def subscriptionEntries (fromStr : String → Option Json) (body : String) : List String :=
  if looksJson body then ((fromStr (trimStart body)).map jsonEntries).getD [] else textLines body

def hasAddress (entry : String) : Bool := (IpAddr.fromStr (beforeSlash (trim entry))).isSome

theorem validRange_eq_some {entry r : String} :
    validRange entry = some r ↔ hasAddress entry = true ∧ r = trim entry := by
  unfold validRange hasAddress
  by_cases hblank : trim entry = ""
  · have hnone : (IpAddr.fromStr (beforeSlash "")).isSome = false := by decide
    simp [hblank, hnone]
  · by_cases haddr : (IpAddr.fromStr (beforeSlash (trim entry))).isSome = true
    · simp [hblank, haddr, eq_comm]
    · simp [hblank, haddr]

theorem mem_of_isEmpty_ite {ranges : List String} {message r : String} :
    (∃ returned, (if ranges.isEmpty then .error message else .ok ranges : Except String _) =
      .ok returned ∧ r ∈ returned) ↔ r ∈ ranges := by
  cases ranges with
  | nil | cons _ _ => simp

variable {fromStr : String → Option Json} {body : String} {p : Patterns}

theorem mem_parseSubscription {r : String} :
    (∃ ranges, parseSubscription fromStr body = .ok ranges ∧ r ∈ ranges) ↔
      ∃ entry ∈ subscriptionEntries fromStr body, hasAddress entry = true ∧ r = trim entry := by
  simp only [← validRange_eq_some, ← List.mem_filterMap]
  unfold parseSubscription subscriptionEntries
  by_cases hjson : looksJson body = true
  · rw [if_pos hjson, if_pos hjson]
    cases fromStr (trimStart body) with
    | none => simp
    | some _ => exact mem_of_isEmpty_ite
  · rw [if_neg hjson, if_neg hjson]
    exact mem_of_isEmpty_ite

/-! ## The data plane -/

theorem isOk_mapM {α β ε : Type} {f : α → Except ε β} {l : List α}
    (h : ∀ a ∈ l, (f a).isOk = true) : (l.mapM f).isOk = true := by
  induction l with
  | nil => rfl
  | cons a l ih =>
    have ⟨hhead, htail⟩ := List.forall_mem_cons.mp h
    rw [List.mapM_cons]
    cases ha : f a with
    | error _ => rw [ha] at hhead; cases hhead
    | ok _ =>
      have hrest := ih htail
      cases hl : l.mapM f with
      | error _ => rw [hl] at hrest; cases hrest
      | ok _ => rfl

/-- A location that builds without a gate builds with one whose ranges are all accepted. -/
theorem new_gated {ranges : List String}
    (h : ∀ r ∈ ranges, (parseIpCondition p (trim r)).isOk = true) {name : String}
    {conf : LocationConf} (hnew : (Location.new p name { conf with matchIpRanges := none }).isOk) :
    (Location.new p name { conf with matchIpRanges := some ranges }).isOk = true := by
  have hgate : (parseIpConditions p (some ranges)).isOk = true := by
    refine isOk_mapM fun item hitem => ?_
    obtain ⟨r, hr, rfl⟩ := List.mem_map.mp (List.mem_filter.mp hitem).1
    exact h r hr
  cases hnets : parseIpConditions p (some ranges) with
  | error _ => rw [hnets] at hgate; cases hgate
  | ok _ =>
    have hnone : parseIpConditions p none = .ok [] := rfl
    simp only [Location.new, hnets, hnone] at hnew ⊢
    by_cases hname : name = ""
    · rw [if_pos hname] at hnew
      cases hnew
    · rw [if_neg hname] at hnew ⊢
      -- both sides fail or go on together up to the value they return
      generalize List.mapM (HostSelector.new p) _ = hosts at hnew ⊢
      generalize PathSelector.new p _ = selector at hnew ⊢
      simp only [bind, Except.bind] at hnew ⊢
      cases hosts with
      | error _ => cases hnew
      | ok _ =>
        cases selector with
        | error _ => cases hnew
        | ok _ =>
          cases hup : conf.upstreamHost with
          | none => rfl
          | some value =>
            simp only [hup] at hnew ⊢
            by_cases hbad : trim value ≠ "" ∧ isHeaderValue (trim value) = false
            · rw [if_pos hbad] at hnew
              cases hnew
            · rw [if_neg hbad]
              rfl

/-- For every body: every returned range is accepted, so that a location builds with the gate as it
does without, and every line or entry the data plane accepts is returned, if and only if the lines
or entries with an address before the slash are those the data plane accepts. -/
theorem subscription_usable_iff (p : Patterns) (fromStr : String → Option Json) (body : String) :
    ((∀ ranges, parseSubscription fromStr body = .ok ranges →
        (∀ r ∈ ranges, (parseIpCondition p r).isOk = true) ∧
        ∀ name (conf : LocationConf),
          (Location.new p name { conf with matchIpRanges := none }).isOk = true →
            (Location.new p name { conf with matchIpRanges := some ranges }).isOk = true) ∧
      ∀ entry ∈ subscriptionEntries fromStr body,
        (parseIpCondition p (trim entry)).isOk = true →
          ∃ ranges, parseSubscription fromStr body = .ok ranges ∧ trim entry ∈ ranges) ↔
      ∀ entry ∈ subscriptionEntries fromStr body,
        hasAddress entry = (parseIpCondition p (trim entry)).isOk := by
  constructor
  · rintro ⟨hsound, hcomplete⟩ entry hentry
    refine Bool.eq_iff_iff.mpr ⟨fun haddr => ?_, fun hok => ?_⟩
    · obtain ⟨ranges, hparse, hmem⟩ := mem_parseSubscription.mpr ⟨entry, hentry, haddr, rfl⟩
      exact (hsound ranges hparse).1 _ hmem
    · obtain ⟨other, -, haddr, htrim⟩ := mem_parseSubscription.mp (hcomplete entry hentry hok)
      unfold hasAddress
      rw [htrim]
      exact haddr
  · intro hagree
    refine ⟨fun ranges hparse => ?_, fun entry hentry hok => ?_⟩
    · have haccepted : ∀ r ∈ ranges, trim r = r ∧ (parseIpCondition p r).isOk = true := by
        intro r hr
        obtain ⟨entry, hentry, haddr, rfl⟩ := mem_parseSubscription.mp ⟨ranges, hparse, hr⟩
        exact ⟨trim_trim entry, (hagree entry hentry).symm.trans haddr⟩
      refine ⟨fun r hr => (haccepted r hr).2, fun name conf hnew => new_gated (fun r hr => ?_) hnew⟩
      rw [(haccepted r hr).1]
      exact (haccepted r hr).2
    · exact mem_parseSubscription.mpr ⟨entry, hentry, (hagree entry hentry).trans hok, rfl⟩

/-- `ipnet` on two texts. -/
def tenNet : Patterns :=
  { Patterns.inert with
    ipNetFromStr := fun s => if s = "10.0.0.0/8" then some (.v4 0x0A000000 8) else none }

theorem overlong_prefix_breaks_location :
    (parseSubscription (fun _ => none) "10.0.0.0/8\n10.0.0.0/33").toOption =
        some ["10.0.0.0/8", "10.0.0.0/33"] ∧
      (Location.new tenNet "a" ⟨none, none, none, none, none, none, none⟩).isOk = true ∧
      (Location.new tenNet "a" ⟨none, none, none, none, some ["10.0.0.0/8", "10.0.0.0/33"], none,
        none⟩).isOk = false := by
  decide +kernel

end PingWaf.Server
