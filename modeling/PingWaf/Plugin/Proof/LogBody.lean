import PingWaf.Plugin.LogBody

/-!
# What the log keeps of a body

`absorb` keeps a prefix of what it has seen and the gauge up by its length (`Keeps`); `finish` cuts
the prefix to the limit, and both it and `drop` give the gauge back.
-/

namespace PingWaf.Plugin.LogBodyPrefix

/-- After the bytes `seen`: they are held up to a point beyond the limit, and the gauge is up by what
is held. -/
def Keeps (limit : Nat) (gauge : Int) (seen : List UInt8) (st : LogBodyPrefix × Int) : Prop :=
  ∃ body, st = (⟨limit, body, seen.length, false⟩, gauge + (body.getD []).length) ∧
    (limit ≠ 0 → ∃ rest, seen = body.getD [] ++ rest ∧
      (rest = [] ∨ limit < (body.getD []).length))

variable {limit : Nat} {gauge : Int} {seen : List UInt8} {st : LogBodyPrefix × Int}

theorem Keeps.absorb (h : Keeps limit gauge seen st) (chunk : List UInt8) :
    Keeps limit gauge (seen ++ chunk) ((st.1.absorb chunk).1, st.2 + (st.1.absorb chunk).2) := by
  obtain ⟨body, rfl, hkept⟩ := h
  by_cases hl : limit = 0
  · exact ⟨body, by simp [LogBodyPrefix.absorb, hl], absurd hl⟩
  obtain ⟨rest, hseen, hrest⟩ := hkept hl
  by_cases hle : (body.getD []).length ≤ limit
  · obtain rfl : rest = [] := hrest.resolve_right (by omega)
    refine ⟨some (body.getD [] ++ chunk), ?_, fun _ => ⟨[], by simp [hseen], .inl rfl⟩⟩
    simp only [LogBodyPrefix.absorb, held, hl, hle, if_true, if_false, Option.getD_some,
      List.length_append, Prod.mk.injEq, true_and]
    split <;> omega
  · refine ⟨some (body.getD []), by simp [LogBodyPrefix.absorb, held, hl, hle],
      fun _ => ⟨rest ++ chunk, ?_, .inr (by simpa using hle)⟩⟩
    rw [Option.getD_some, hseen, List.append_assoc]

theorem Keeps.absorbAll (h : Keeps limit gauge seen st) (chunks : List (List UInt8)) :
    Keeps limit gauge (seen ++ chunks.flatten) (absorbAll st chunks) := by
  induction chunks generalizing seen st with
  | nil => simpa [LogBodyPrefix.absorbAll] using h
  | cons chunk _ ih => simpa [LogBodyPrefix.absorbAll] using ih (h.absorb chunk)

theorem Keeps.isSome {chunks : List (List UInt8)} (h : Keeps limit gauge seen st) (hl : limit ≠ 0)
    (hb : chunks = [] → st.1.body.isSome) : (LogBodyPrefix.absorbAll st chunks).1.body.isSome := by
  induction chunks generalizing seen st with
  | nil => exact hb rfl
  | cons chunk _ ih =>
    refine ih (h.absorb chunk) fun _ => ?_
    obtain ⟨body, rfl, -⟩ := h
    simp [LogBodyPrefix.absorb, hl]

theorem drop_eq (p : LogBodyPrefix) : p.drop = -p.held := by
  unfold drop
  split <;> omega

theorem finish_gauge (p : LogBodyPrefix) : p.finish.2 = -p.held := by
  by_cases htrim : p.limit < p.held
  · have htake : held { p with body := p.body.map (·.take p.limit), truncated := true } = p.limit := by
      unfold held at htrim ⊢
      cases hb : p.body <;> simp [hb] at htrim ⊢
      omega
    simp only [finish, if_pos htrim, drop_eq, htake]
    simp [held] at htrim ⊢
    omega
  · simp only [finish, if_neg htrim, drop_eq]
    simp [held]

/-- For every limit and every sequence of chunks: with a limit and a chunk `finish` yields the first
`limit` bytes, the length of the whole and whether it is more than the limit; and whether the value
is finished or dropped, the gauge is back where it was. -/
theorem log_body_prefix_exact (limit : Nat) (chunks : List (List UInt8)) (gauge : Int) :
    (1 ≤ limit → chunks ≠ [] → (absorbAll (new limit, gauge) chunks).1.finish.1 =
      (some (chunks.flatten.take limit), chunks.flatten.length,
        decide (limit < chunks.flatten.length))) ∧
    (absorbAll (new limit, gauge) chunks).2 +
      (absorbAll (new limit, gauge) chunks).1.finish.2 = gauge ∧
    (absorbAll (new limit, gauge) chunks).2 +
      (absorbAll (new limit, gauge) chunks).1.drop = gauge := by
  have h0 : Keeps limit gauge [] (new limit, gauge) :=
    ⟨none, by simp [new], fun _ => ⟨[], rfl, .inl rfl⟩⟩
  have hsome (hl : limit ≠ 0) (hne : chunks ≠ []) := h0.isSome hl (absurd · hne)
  obtain ⟨body, hst, hkept⟩ := h0.absorbAll chunks
  rw [hst] at hsome ⊢
  refine ⟨fun hl hne => ?_, by simp [finish_gauge, held], by simp [drop_eq, held]⟩
  obtain ⟨buf, rfl⟩ := Option.isSome_iff_exists.mp (hsome (by omega) hne)
  obtain ⟨rest, hseen, hrest⟩ := hkept (by omega)
  simp only [List.nil_append, Option.getD_some] at hseen hrest ⊢
  rw [hseen]
  by_cases htrim : limit < buf.length
  · have hlt : limit < buf.length + rest.length := by omega
    simp [finish, held, htrim, hlt, List.take_append_of_le_length htrim.le]
  · obtain rfl := hrest.resolve_right htrim
    simp [finish, held, htrim, List.take_of_length_le (not_lt.mp htrim)]

end PingWaf.Plugin.LogBodyPrefix
