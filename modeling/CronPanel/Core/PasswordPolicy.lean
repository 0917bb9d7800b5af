import CronPanel.Library.Strings

namespace CronPanel.Core.PasswordPolicy

open Library.Strings

def zeros : List ℕ :=
  [0x30, 0x660, 0x6f0, 0x7c0, 0x966, 0x9e6, 0xa66, 0xae6, 0xb66, 0xbe6, 0xc66, 0xce6, 0xd66, 0xde6, 0xe50,
    0xed0, 0xf20, 0x1040, 0x1090, 0x17e0, 0x1810, 0x1946, 0x19d0, 0x1a80, 0x1a90, 0x1b50, 0x1bb0, 0x1c40,
    0x1c50, 0xa620, 0xa8d0, 0xa900, 0xa9d0, 0xa9f0, 0xaa50, 0xabf0, 0xff10, 0x104a0, 0x10d30, 0x11066,
    0x110f0, 0x11136, 0x111d0, 0x112f0, 0x11450, 0x114d0, 0x11650, 0x116c0, 0x11730, 0x118e0, 0x11950,
    0x11c50, 0x11d50, 0x11da0, 0x16a60, 0x16ac0, 0x16b50, 0x1d7ce, 0x1d7d8, 0x1d7e2, 0x1d7ec, 0x1d7f6,
    0x1e140, 0x1e2f0, 0x1e950, 0x1fbf0]

/-- What `\d` matches. -/
def isDecimalDigit (c : Char) : Bool :=
  zeros.any fun first ↦ first ≤ c.toNat && c.toNat < first + 10

def commonWeakPasswords : List Text :=
  ["password".toList, "password1".toList, "password123".toList, "12345678".toList, "123456789".toList,
    "1234567890".toList, "qwerty123".toList, "qwertyuiop".toList, "admin123".toList, "admin1234".toList,
    "administrator".toList, "letmein1".toList, "iloveyou1".toList, "welcome1".toList, "monkey123".toList,
    "dragon123".toList, "root1234".toList, "changeme1".toList]

def violationIf (condition : Bool) (message : Text) : List Text :=
  if condition then [message] else []

def validatePassword (minLength : ℕ) (password username : Text) : List Text :=
  if password = [] then ["La contraseña no puede estar vacía.".toList]
  else
    violationIf (password.length < minLength)
        ("Debe tener al menos ".toList ++ decimal minLength ++ " caracteres.".toList) ++
      violationIf (!password.any fun c ↦ 'A' ≤ c && c ≤ 'Z')
        "Debe incluir al menos una letra mayúscula.".toList ++
      violationIf (!password.any fun c ↦ 'a' ≤ c && c ≤ 'z')
        "Debe incluir al menos una letra minúscula.".toList ++
      violationIf (!password.any isDecimalDigit) "Debe incluir al menos un número.".toList ++
      violationIf (lower password ∈ commonWeakPasswords) "Es una contraseña demasiado común.".toList ++
      violationIf (!username.isEmpty && lower username <:+: lower password)
        "No debe contener el nombre de usuario.".toList

def enforcePasswordPolicy (minLength : ℕ) (password username : Text) : Except (List Text) Unit :=
  if validatePassword minLength password username = [] then .ok ()
  else .error (validatePassword minLength password username)

end CronPanel.Core.PasswordPolicy
