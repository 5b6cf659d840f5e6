import StrongAuth.Proofs.Store.Lookups

set_option autoImplicit false

namespace StrongAuth.TableStore

theorem column_challenge_iff (c : Sca.Challenge) :
    column Sca.Challenge.ofJson? c.toJson.write = .ok c ↔ c.fits = true := by
  refine ⟨fun h => ?_, column_challenge⟩
  rw [column_write Sca.Challenge.ofJson? c.toJson_isWritten] at h
  split at h
  · next read =>
    cases h
    exact Sca.Challenge.fits_of_ofJson? read
  · cases h

/-- Reading undoes writing for everything that the tables keep as text. -/
theorem columns_read_back :
    (∀ o : Order, column Order.ofJson? o.toJson.write = .ok o) ∧
      (∀ p : Psu, column Psu.ofJson? p.toJson.write = .ok p) ∧
      (∀ m : Sca.Method, column Sca.Method.ofJson? m.toJson.write = .ok m) ∧
      ∀ c : Sca.Challenge, column Sca.Challenge.ofJson? c.toJson.write = .ok c ↔ c.fits = true :=
  ⟨column_order, column_psu, column_method, column_challenge_iff⟩

end StrongAuth.TableStore
