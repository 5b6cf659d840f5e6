import StrongAuth.Bank
import StrongAuth.Store

set_option autoImplicit false

namespace StrongAuth

structure Site (σ : Type) where
  store : σ
  bank : Bank := {}

end StrongAuth
